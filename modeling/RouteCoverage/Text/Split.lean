/-!
# Splitting text

Text cut at every occurrence of one character.  Joining the pieces with that character gives
the text back, and no piece contains it.
-/

namespace RouteCoverage

/-- The pieces of `s` between the occurrences of `sep`; there is always one piece. -/
def splitAt (sep : Char) : List Char → List (List Char)
  | [] => [[]]
  | c :: s =>
    if c = sep then [] :: splitAt sep s
    else match splitAt sep s with
      | [] => [[c]]
      | piece :: pieces => (c :: piece) :: pieces

/-- The pieces with `sep` between them. -/
def joinWith (sep : Char) : List (List Char) → List Char
  | [] => []
  | [piece] => piece
  | piece :: pieces => piece ++ sep :: joinWith sep pieces

/-- The text before the first occurrence of `sep`, and the text behind it. -/
def cutAt? (sep : Char) : List Char → Option (List Char × List Char)
  | [] => none
  | c :: s =>
    if c = sep then some ([], s)
    else (cutAt? sep s).map fun (before, after) => (c :: before, after)

theorem splitAt_ne_nil (sep : Char) (s : List Char) : splitAt sep s ≠ [] := by
  cases s with
  | nil => simp [splitAt]
  | cons c s =>
    simp only [splitAt]
    split
    · simp
    · split <;> simp

/-- Joining the pieces of a text gives the text back. -/
theorem joinWith_splitAt (sep : Char) (s : List Char) : joinWith sep (splitAt sep s) = s := by
  induction s with
  | nil => rfl
  | cons c s ih =>
    simp only [splitAt]
    have hne := splitAt_ne_nil sep s
    cases h : splitAt sep s with
    | nil => exact absurd h hne
    | cons piece pieces =>
      rw [h] at ih
      split
      · next hc => simp [joinWith, ih, hc]
      · cases pieces with
        | nil => simpa [joinWith] using ih
        | cons p ps => simpa [joinWith] using ih

theorem splitAt_append_cons (sep : Char) (s rest : List Char) :
    splitAt sep (s ++ sep :: rest) = splitAt sep s ++ splitAt sep rest := by
  induction s with
  | nil => simp [splitAt]
  | cons c s ih =>
    simp only [List.cons_append, splitAt, ih]
    split
    · rfl
    · cases h : splitAt sep s with
      | nil => exact absurd h (splitAt_ne_nil sep s)
      | cons piece pieces => rfl

theorem splitAt_of_not_mem {sep : Char} {s : List Char} (h : sep ∉ s) : splitAt sep s = [s] := by
  induction s with
  | nil => rfl
  | cons c s ih =>
    rw [List.mem_cons, not_or] at h
    rw [splitAt, if_neg (Ne.symm h.1), ih h.2]

/-- The characters of a piece are characters of the text other than the one it was cut at. -/
theorem mem_of_mem_splitAt {sep c : Char} {s piece : List Char} (h : piece ∈ splitAt sep s)
    (hc : c ∈ piece) : c ∈ s ∧ c ≠ sep := by
  induction s generalizing piece with
  | nil =>
    obtain rfl := List.mem_singleton.mp h
    cases hc
  | cons d s ih =>
    rw [splitAt] at h
    split at h
    · rcases List.mem_cons.mp h with rfl | h
      · cases hc
      · exact ⟨List.mem_cons_of_mem d (ih h hc).1, (ih h hc).2⟩
    · next hd =>
      cases hsplit : splitAt sep s with
      | nil => exact absurd hsplit (splitAt_ne_nil sep s)
      | cons first rest =>
        rw [hsplit] at h ih
        rcases List.mem_cons.mp h with rfl | h
        · rcases List.mem_cons.mp hc with rfl | hc
          · exact ⟨List.mem_cons_self, hd⟩
          · have hfirst := ih List.mem_cons_self hc
            exact ⟨List.mem_cons_of_mem d hfirst.1, hfirst.2⟩
        · have hrest := ih (List.mem_cons_of_mem first h) hc
          exact ⟨List.mem_cons_of_mem d hrest.1, hrest.2⟩

theorem splitAt_append_left {sep : Char} {before s piece : List Char} {pieces : List (List Char)}
    (h : sep ∉ before) (hs : splitAt sep s = piece :: pieces) :
    splitAt sep (before ++ s) = (before ++ piece) :: pieces := by
  induction before with
  | nil => exact hs
  | cons c before ih =>
    rw [List.mem_cons, not_or] at h
    rw [List.cons_append, splitAt, if_neg (Ne.symm h.1), ih h.2]
    rfl

theorem splitAt_append_right {sep : Char} {s after piece : List Char} {pieces : List (List Char)}
    (h : sep ∉ after) (hs : splitAt sep s = pieces ++ [piece]) :
    splitAt sep (s ++ after) = pieces ++ [piece ++ after] := by
  induction s generalizing pieces piece with
  | nil =>
    obtain ⟨rfl, hpiece⟩ := List.append_eq_singleton_iff.mp hs.symm |>.resolve_right
      fun hne => nomatch hne.2
    cases hpiece
    exact splitAt_of_not_mem h
  | cons c s ih =>
    rw [splitAt] at hs
    rw [List.cons_append, splitAt]
    split at hs
    · next hc =>
      rw [if_pos hc]
      cases pieces with
      | nil => exact absurd (List.tail_eq_of_cons_eq hs) (splitAt_ne_nil sep s)
      | cons first pieces =>
        obtain ⟨rfl, htail⟩ := List.cons_eq_cons.mp hs
        rw [ih htail]
        rfl
    · next hc =>
      rw [if_neg hc]
      cases hsplit : splitAt sep s with
      | nil => exact absurd hsplit (splitAt_ne_nil sep s)
      | cons first rest =>
        rw [hsplit] at hs
        cases pieces with
        | nil =>
          obtain ⟨rfl, rfl⟩ := List.cons_eq_cons.mp hs
          rw [@ih _ [] hsplit]
          rfl
        | cons first' pieces =>
          obtain ⟨rfl, rfl⟩ := List.cons_eq_cons.mp hs
          rw [@ih _ (first :: pieces) hsplit]
          rfl

end RouteCoverage
