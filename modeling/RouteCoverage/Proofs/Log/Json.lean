import Mathlib.Data.List.TakeDrop
import RouteCoverage.Log.Json

/-!
# Written values are read back

A value that is written without blanks is read back as it was, whatever follows it, as long as
what follows does not go on with a number (`Json.readValue?_render`).  A text is read back
character by character, since no escape can be taken for another one or for the closing quote
(`Json.readText?_escape`).  What is written holds no control character
(`Json.printable_render`), so it is one line.
-/

namespace RouteCoverage.Json

/-- A value that nests at most `depth` deep, and whose numbers are all natural. -/
def Fits : Nat → Json → Prop
  | _, number _ => False
  | 0, array _ => False
  | 0, object _ => False
  | depth + 1, array elements => ∀ v ∈ elements, Fits depth v
  | depth + 1, object fields => ∀ field ∈ fields, Fits depth field.2
  | _, _ => True

/-! ### Texts -/

theorem hexValue?_hexDigit : ∀ n < 16, hexValue? (hexDigit n) = some n := by decide

theorem escaped?_control {c : Char} (h : c.toNat < 32) (rest : List Char) :
    escaped? ('u' :: '0' :: '0' :: hexDigit (c.toNat / 16) :: hexDigit (c.toNat % 16) :: rest) =
      some (c, rest) := by
  have hzero : hexValue? '0' = some 0 := by decide
  have hnumber : 16 * (c.toNat / 16) + c.toNat % 16 = c.toNat := Nat.div_add_mod _ _
  have hhigh := hexValue?_hexDigit (c.toNat / 16) (by omega)
  have hlow := hexValue?_hexDigit (c.toNat % 16) (by omega)
  have hhex : hex4? ('0' :: '0' :: hexDigit (c.toNat / 16) :: hexDigit (c.toNat % 16) :: rest) =
      some (c.toNat, rest) := by
    simp [hex4?, hzero, hhigh, hlow, hnumber]
  -- a control character is no half of a pair of escapes
  have hplane : ¬ (0xD800 ≤ c.toNat ∧ c.toNat < 0xDC00) := by omega
  have hvalid : c.toNat.isValidChar := .inl (by omega)
  rw [escaped?, unicode?, hhex]
  simp [hplane, hvalid, guard]

/-- What is written for a character is read back as this character. -/
theorem readText?_escape (c : Char) (fuel : Nat) (read rest : List Char) :
    readText? (fuel + 1) read (escape c ++ rest) = readText? fuel (c :: read) rest := by
  unfold escape
  split
  case h_8 c hquote hbackslash _ _ _ _ _ =>
    split
    · next hcontrol =>
        rw [List.cons_append, readText?]
        simp [escaped?_control hcontrol]
    · next hplain =>
        rw [List.singleton_append, readText?, if_neg hplain]
        · exact hquote
        · exact hbackslash
  all_goals rfl

theorem escape_ne_nil (c : Char) : escape c ≠ [] := by
  unfold escape
  split
  case h_8 => split <;> exact List.cons_ne_nil _ _
  all_goals exact List.cons_ne_nil _ _

theorem length_le_length_flatMap_escape (s : List Char) :
    s.length ≤ (s.flatMap escape).length := by
  induction s with
  | nil => exact Nat.le_refl _
  | cons c s ih =>
      have hc := List.length_pos_iff.mpr (escape_ne_nil c)
      rw [List.flatMap_cons, List.length_append, List.length_cons]
      omega

theorem readText?_flatMap_escape {s : List Char} {fuel : Nat} (h : s.length < fuel)
    (read rest : List Char) :
    readText? fuel read (s.flatMap escape ++ '"' :: rest) =
      some (String.ofList (read.reverse ++ s), rest) := by
  induction s generalizing fuel read with
  | nil =>
      obtain ⟨fuel, rfl⟩ := Nat.exists_eq_succ_of_ne_zero (Nat.ne_of_gt h)
      rw [List.append_nil]
      rfl
  | cons c s ih =>
      obtain ⟨fuel, rfl⟩ := Nat.exists_eq_succ_of_ne_zero (Nat.ne_zero_of_lt h)
      rw [List.flatMap_cons, List.append_assoc, readText?_escape,
        ih (Nat.lt_of_succ_lt_succ h), List.reverse_cons, List.append_assoc,
        List.singleton_append]

theorem readText?_quoted (s : String) (rest : List Char) :
    readText? ((s.toList.flatMap escape ++ '"' :: rest).length + 1) []
      (s.toList.flatMap escape ++ '"' :: rest) = some (s, rest) := by
  have hlength := length_le_length_flatMap_escape s.toList
  rw [readText?_flatMap_escape (by rw [List.length_append]; omega), List.reverse_nil,
    List.nil_append, String.ofList_toList]

theorem toList_quote (s : String) :
    (quote s).toList = '"' :: (s.toList.flatMap escape ++ ['"']) := by
  simp [quote]

/-! ### Numbers -/

/-- What follows a value does not go on with a number. -/
def Stops (rest : List Char) : Prop :=
  ∀ c ∈ rest.head?, c.isDigit = false ∧ c ∉ ['.', 'e', 'E']

theorem digits_toDigits_append (n : Nat) {rest : List Char} (h : Stops rest) :
    digits (Nat.toDigits 10 n ++ rest) = (Nat.toDigits 10 n, rest) := by
  have hdigit : ∀ c ∈ Nat.toDigits 10 n, c.isDigit = true := fun c =>
    Nat.isDigit_of_mem_toDigits (by decide) (by decide)
  have hrest : rest.takeWhile Char.isDigit = [] ∧ rest.dropWhile Char.isDigit = rest := by
    cases rest with
    | nil => exact ⟨rfl, rfl⟩
    | cons c rest => simp [(h c rfl).1]
  rw [digits, List.span_eq_takeWhile_dropWhile, List.takeWhile_append_of_pos hdigit,
    List.dropWhile_append_of_pos hdigit, hrest.1, hrest.2, List.append_nil]

theorem head?_toDigits_ne_zero {n : Nat} (h : n ≠ 0) : (Nat.toDigits 10 n).head? ≠ some '0' := by
  induction n using Nat.strongRecOn with
  | _ n ih =>
      by_cases hsmall : n < 10
      · rw [Nat.toDigits_of_lt_base hsmall, List.head?_cons, ne_eq, Option.some_inj,
          Nat.digitChar_eq_zero]
        exact h
      · have hlead := ih (n / 10) (by omega) (by omega)
        rw [Nat.toDigits_of_base_le (by decide) (by omega)]
        cases htoDigits : Nat.toDigits 10 (n / 10) with
        | nil => exact absurd htoDigits Nat.toDigits_ne_nil
        | cons c s => rwa [htoDigits] at hlead

theorem isWhole_toDigits (n : Nat) : isWhole (Nat.toDigits 10 n) = true := by
  by_cases h : n = 0
  · subst h
    rfl
  · have hhead := head?_toDigits_ne_zero h
    unfold isWhole
    split
    · next hnil => exact absurd hnil Nat.toDigits_ne_nil
    · rfl
    · next hzero =>
        rw [hzero] at hhead
        exact absurd rfl hhead
    · rfl

/-- The first character of a number is a digit. -/
theorem exists_toDigits_eq_cons (n : Nat) :
    ∃ c s, Nat.toDigits 10 n = c :: s ∧ c.isDigit = true := by
  obtain ⟨c, s, hs⟩ := List.exists_cons_of_ne_nil (Nat.toDigits_ne_nil (n := n) (b := 10))
  have hc : c ∈ Nat.toDigits 10 n := hs ▸ List.mem_cons_self
  exact ⟨c, s, hs, Nat.isDigit_of_mem_toDigits (by decide) (by decide) hc⟩

theorem readNumber?_toDigits_append (n : Nat) {rest : List Char} (h : Stops rest) :
    readNumber? (Nat.toDigits 10 n ++ rest) = some (.natural n, rest) := by
  obtain ⟨c, s, hs, hc⟩ := exists_toDigits_eq_cons n
  have htake : (Nat.toDigits 10 n ++ rest).take ((Nat.toDigits 10 n ++ rest).length - rest.length) =
      Nat.toDigits 10 n := by
    rw [List.length_append, Nat.add_sub_cancel, List.take_left]
  have hvalue : (Nat.toDigits 10 n).foldl (fun n d => 10 * n + (d.toNat - '0'.toNat)) 0 = n :=
    Nat.ofDigitChars_ten_toDigits
  have hdigits := digits_toDigits_append n h
  unfold readNumber?
  extract_lets unsigned
  have hsign : unsigned = Nat.toDigits 10 n ++ rest := by
    unfold unsigned
    rw [hs]
    split
    · next hminus =>
        obtain ⟨rfl, -⟩ := List.cons_eq_cons.mp hminus
        cases hc
    · rfl
  rw [hsign, hdigits]
  dsimp only
  rw [isWhole_toDigits]
  simp only [guard, if_true, Option.pure_def, Option.bind_eq_bind, Option.bind_some]
  split
  · exact absurd (h '.' rfl).2 (by decide)
  split
  · exact absurd (h 'e' rfl).2 (by decide)
  · exact absurd (h 'E' rfl).2 (by decide)
  rw [if_pos htake, hvalue]

/-! ### Values -/

/-- A value is what `read` reads where the value is written, up to where it ends. -/
def ReadBy (read : List Char → Option (Json × List Char)) (v : Json) : Prop :=
  ∀ rest, Stops rest → read (v.render.toList ++ rest) = some (v, rest)

theorem stops_cons {c : Char} (h : c.isDigit = false ∧ c ∉ ['.', 'e', 'E']) (rest : List Char) :
    Stops (c :: rest) := by
  rintro _ ⟨⟩
  exact h

/-- A written value begins with a character that is no blank and ends no array or object. -/
theorem exists_render_eq_cons {depth : Nat} {v : Json} (h : Fits depth v) :
    ∃ c s, v.render.toList = c :: s ∧ c ∉ [' ', '\t', '\n', '\r', ']', '}'] := by
  cases v with
  | null => exact ⟨'n', _, rfl, by decide⟩
  | boolean b =>
      cases b with
      | false => exact ⟨'f', _, rfl, by decide⟩
      | true => exact ⟨'t', _, rfl, by decide⟩
  | natural n =>
      obtain ⟨c, s, hs, hc⟩ := exists_toDigits_eq_cons n
      refine ⟨c, s, by rw [render, Nat.toString_eq_repr, Nat.toList_repr, hs], fun hmem => ?_⟩
      have hnone : [' ', '\t', '\n', '\r', ']', '}'].all (!·.isDigit) = true := by decide
      have hother := List.all_eq_true.mp hnone c hmem
      rw [hc] at hother
      cases hother
  | number written => cases depth <;> exact h.elim
  | text s => exact ⟨'"', _, toList_quote s, by decide⟩
  | array elements =>
      rw [render, String.toList_append, String.toList_append]
      exact ⟨'[', _, rfl, by decide⟩
  | object fields =>
      rw [render, String.toList_append, String.toList_append]
      exact ⟨'{', _, rfl, by decide⟩

theorem skipBlanks_cons {c : Char} (h : c ∉ [' ', '\t', '\n', '\r', ']', '}']) (s : List Char) :
    skipBlanks (c :: s) = c :: s := by
  refine List.dropWhile_cons_of_neg ?_
  simp only [List.mem_cons, not_or] at h
  simp [h.1, h.2.1, h.2.2.1, h.2.2.2.1]

theorem skipBlanks_render {depth : Nat} {v : Json} (h : Fits depth v) (rest : List Char) :
    skipBlanks (v.render.toList ++ rest) = v.render.toList ++ rest := by
  obtain ⟨c, s, hs, hc⟩ := exists_render_eq_cons h
  rw [hs]
  exact skipBlanks_cons hc _

section

variable {depth : Nat} {read : List Char → Option (Json × List Char)}

theorem readElements?_render {v : Json} {vs : List Json} (hfits : ∀ w ∈ v :: vs, Fits depth w)
    (hread : ∀ w ∈ v :: vs, ReadBy read w) {fuel : Nat} (hfuel : vs.length < fuel)
    (rest : List Char) :
    readElements? read fuel ((renderElements (v :: vs)).toList ++ ']' :: rest) =
      some (v :: vs, rest) := by
  induction vs generalizing v fuel with
  | nil =>
      obtain ⟨fuel, rfl⟩ := Nat.exists_eq_succ_of_ne_zero (Nat.ne_zero_of_lt hfuel)
      rw [renderElements, readElements?, skipBlanks_render (hfits v List.mem_cons_self),
        hread v List.mem_cons_self _ (stops_cons (by decide) _)]
      rfl
  | cons w vs ih =>
      obtain ⟨fuel, rfl⟩ := Nat.exists_eq_succ_of_ne_zero (Nat.ne_zero_of_lt hfuel)
      have hmore := ih (fun u hu => hfits u (List.mem_cons_of_mem v hu))
        (fun u hu => hread u (List.mem_cons_of_mem v hu)) (Nat.lt_of_succ_lt_succ hfuel)
      have hcomma : (renderElements (v :: w :: vs)).toList ++ ']' :: rest =
          (render v).toList ++ ',' :: ((renderElements (w :: vs)).toList ++ ']' :: rest) := by
        simp [renderElements]
      rw [hcomma, readElements?, skipBlanks_render (hfits v List.mem_cons_self),
        hread v List.mem_cons_self _ (stops_cons (by decide) _)]
      refine Option.bind_eq_some_iff.mpr ⟨(v, _), rfl, ?_⟩
      exact Option.bind_eq_some_iff.mpr ⟨(w :: vs, rest), hmore, rfl⟩

theorem exists_renderElements_eq_cons {v : Json} (h : Fits depth v) (vs : List Json) :
    ∃ c s, (renderElements (v :: vs)).toList = c :: s ∧
      c ∉ [' ', '\t', '\n', '\r', ']', '}'] := by
  obtain ⟨c, s, hs, hc⟩ := exists_render_eq_cons h
  cases vs with
  | nil => exact ⟨c, s, hs, hc⟩
  | cons w vs =>
      refine ⟨c, s ++ ',' :: (renderElements (w :: vs)).toList, ?_, hc⟩
      simp [renderElements, hs]

theorem length_le_length_renderElements {vs : List Json} (h : ∀ w ∈ vs, Fits depth w) :
    vs.length ≤ (renderElements vs).toList.length := by
  induction vs with
  | nil => exact Nat.zero_le _
  | cons v vs ih =>
      obtain ⟨c, s, hs, -⟩ := exists_render_eq_cons (h v List.mem_cons_self)
      cases vs with
      | nil =>
          rw [renderElements, hs]
          exact Nat.le_add_left 1 _
      | cons w vs =>
          have hmore := ih fun u hu => h u (List.mem_cons_of_mem v hu)
          rw [renderElements, String.toList_append, String.toList_append, hs]
          simp only [List.length_append, List.length_cons] at hmore ⊢
          omega
          exact List.cons_ne_nil w vs

theorem readFields?_render {key : String} {v : Json} {fields : List (String × Json)}
    (hfits : ∀ field ∈ (key, v) :: fields, Fits depth field.2)
    (hread : ∀ field ∈ (key, v) :: fields, ReadBy read field.2) {fuel : Nat}
    (hfuel : fields.length < fuel) (rest : List Char) :
    readFields? read fuel ((renderFields ((key, v) :: fields)).toList ++ '}' :: rest) =
      some ((key, v) :: fields, rest) := by
  induction fields generalizing key v fuel with
  | nil =>
      obtain ⟨fuel, rfl⟩ := Nat.exists_eq_succ_of_ne_zero (Nat.ne_zero_of_lt hfuel)
      have hfield : (renderFields [(key, v)]).toList ++ '}' :: rest =
          '"' :: (key.toList.flatMap escape ++
            '"' :: ':' :: ((render v).toList ++ '}' :: rest)) := by
        simp [renderFields, toList_quote]
      rw [hfield, readFields?, skipBlanks_cons (by decide)]
      refine Option.bind_eq_some_iff.mpr ⟨(key, _), readText?_quoted key _, ?_⟩
      refine Option.bind_eq_some_iff.mpr ⟨(v, '}' :: rest), ?_, rfl⟩
      rw [skipBlanks_render (hfits _ List.mem_cons_self)]
      exact hread _ List.mem_cons_self _ (stops_cons (by decide) _)
  | cons next fields ih =>
      obtain ⟨key', w⟩ := next
      obtain ⟨fuel, rfl⟩ := Nat.exists_eq_succ_of_ne_zero (Nat.ne_zero_of_lt hfuel)
      have hmore := ih (fun f hf => hfits f (List.mem_cons_of_mem _ hf))
        (fun f hf => hread f (List.mem_cons_of_mem _ hf)) (Nat.lt_of_succ_lt_succ hfuel)
      have hfield : (renderFields ((key, v) :: (key', w) :: fields)).toList ++ '}' :: rest =
          '"' :: (key.toList.flatMap escape ++ '"' :: ':' :: ((render v).toList ++
            ',' :: ((renderFields ((key', w) :: fields)).toList ++ '}' :: rest))) := by
        simp [renderFields, toList_quote]
      rw [hfield, readFields?, skipBlanks_cons (by decide)]
      refine Option.bind_eq_some_iff.mpr ⟨(key, _), readText?_quoted key _, ?_⟩
      have hvalue : read (skipBlanks ((render v).toList ++
            ',' :: ((renderFields ((key', w) :: fields)).toList ++ '}' :: rest))) =
          some (v, ',' :: ((renderFields ((key', w) :: fields)).toList ++ '}' :: rest)) := by
        rw [skipBlanks_render (hfits _ List.mem_cons_self)]
        exact hread _ List.mem_cons_self _ (stops_cons (by decide) _)
      refine Option.bind_eq_some_iff.mpr ⟨(v, _), hvalue, ?_⟩
      exact Option.bind_eq_some_iff.mpr ⟨((key', w) :: fields, rest), hmore, rfl⟩

theorem exists_renderFields_eq_cons (key : String) (v : Json) (fields : List (String × Json)) :
    ∃ s, (renderFields ((key, v) :: fields)).toList = '"' :: s := by
  cases fields with
  | nil =>
      rw [renderFields, String.toList_append, String.toList_append, toList_quote]
      exact ⟨_, rfl⟩
  | cons next fields =>
      rw [renderFields, String.toList_append, String.toList_append, String.toList_append,
        String.toList_append, toList_quote]
      exacts [⟨_, rfl⟩, List.cons_ne_nil next fields]

theorem length_le_length_renderFields (fields : List (String × Json)) :
    fields.length ≤ (renderFields fields).toList.length := by
  induction fields with
  | nil => exact Nat.zero_le _
  | cons field fields ih =>
      obtain ⟨key, v⟩ := field
      cases fields with
      | nil => simp [renderFields, toList_quote]
      | cons next fields =>
          rw [renderFields, String.toList_append]
          simp only [String.toList_append, List.length_append, List.length_cons, toList_quote]
            at ih ⊢
          omega
          exact List.cons_ne_nil next fields

end

theorem dropWord?_of_ne {word : String} {c : Char} {s : List Char}
    (h : ∃ d ∈ word.toList.head?, d ≠ c) : dropWord? word (c :: s) = none := by
  obtain ⟨d, hd, hne⟩ := h
  rw [dropWord?, if_neg]
  rw [List.isPrefixOf_iff_prefix]
  rintro ⟨t, ht⟩
  cases hword : word.toList with
  | nil =>
      rw [hword] at hd
      cases hd
  | cons e more =>
      rw [hword] at hd ht
      cases hd
      exact hne (List.cons_eq_cons.mp ht).1

/-- A value that begins neither like a text nor like an array or object is a word or a number. -/
theorem readValue?_cons {c : Char} (h : c ∉ ['"', '[', '{']) (depth : Nat) (s : List Char) :
    readValue? depth (c :: s) =
      (((dropWord? "null" (c :: s)).map (null, ·)).or
          ((dropWord? "true" (c :: s)).map (boolean true, ·))).or
        (((dropWord? "false" (c :: s)).map (boolean false, ·)).or (readNumber? (c :: s))) := by
  simp only [List.mem_cons, not_or] at h
  cases depth <;> simp [readValue?, h.1, h.2.1, h.2.2.1]

theorem readBy_null (depth : Nat) : ReadBy (readValue? depth) null := by
  intro rest _
  have hword : null.render.toList ++ rest = 'n' :: 'u' :: 'l' :: 'l' :: rest := rfl
  rw [hword, readValue?_cons (by decide)]
  rfl

theorem readBy_boolean (depth : Nat) (b : Bool) : ReadBy (readValue? depth) (boolean b) := by
  intro rest _
  cases b with
  | false =>
      have hword : (boolean false).render.toList ++ rest =
          'f' :: 'a' :: 'l' :: 's' :: 'e' :: rest := rfl
      rw [hword, readValue?_cons (by decide)]
      rfl
  | true =>
      have hword : (boolean true).render.toList ++ rest = 't' :: 'r' :: 'u' :: 'e' :: rest := rfl
      rw [hword, readValue?_cons (by decide)]
      rfl

theorem readBy_natural (depth n : Nat) : ReadBy (readValue? depth) (natural n) := by
  intro rest hrest
  have hnumber := readNumber?_toDigits_append n hrest
  obtain ⟨c, s, hs, hc⟩ := exists_toDigits_eq_cons n
  have hne {d : Char} (hd : d.isDigit = false) : d ≠ c := by
    rintro rfl
    rw [hd] at hc
    cases hc
  have hopen : c ∉ ['"', '[', '{'] := by
    intro hmem
    have hnone : ['"', '[', '{'].all (!·.isDigit) = true := by decide
    have hother := List.all_eq_true.mp hnone c hmem
    rw [hc] at hother
    cases hother
  rw [hs, List.cons_append] at hnumber
  rw [render, Nat.toString_eq_repr, Nat.toList_repr, hs, List.cons_append, readValue?_cons hopen,
    dropWord?_of_ne ⟨'n', by decide, hne (by decide)⟩,
    dropWord?_of_ne ⟨'t', by decide, hne (by decide)⟩,
    dropWord?_of_ne ⟨'f', by decide, hne (by decide)⟩, hnumber]
  rfl

theorem readBy_text (depth : Nat) (s : String) : ReadBy (readValue? depth) (text s) := by
  intro rest _
  have hread := readText?_quoted s rest
  rw [render, toList_quote, List.cons_append, List.append_assoc, List.singleton_append]
  cases depth <;> rw [readValue?, hread] <;> rfl

theorem readBy_array {depth : Nat} {elements : List Json} (hfits : ∀ v ∈ elements, Fits depth v)
    (hread : ∀ v ∈ elements, ReadBy (readValue? depth) v) :
    ReadBy (readValue? (depth + 1)) (array elements) := by
  intro rest _
  cases elements with
  | nil => rfl
  | cons v vs =>
      have hwritten : (array (v :: vs)).render.toList ++ rest =
          '[' :: ((renderElements (v :: vs)).toList ++ ']' :: rest) := by
        simp [render]
      have hfuel : vs.length < ((renderElements (v :: vs)).toList ++ ']' :: rest).length + 1 := by
        have hlength := length_le_length_renderElements hfits
        rw [List.length_cons] at hlength
        rw [List.length_append]
        omega
      obtain ⟨c, s, hs, hc⟩ := exists_renderElements_eq_cons (hfits v List.mem_cons_self) vs
      rw [hwritten, readValue?]
      split
      · next hend =>
          rw [hs, List.cons_append, skipBlanks_cons hc] at hend
          obtain ⟨rfl, -⟩ := List.cons_eq_cons.mp hend
          exact absurd hc (by decide)
      · rw [readElements?_render hfits hread hfuel]
        rfl

theorem readBy_object {depth : Nat} {fields : List (String × Json)}
    (hfits : ∀ field ∈ fields, Fits depth field.2)
    (hread : ∀ field ∈ fields, ReadBy (readValue? depth) field.2) :
    ReadBy (readValue? (depth + 1)) (object fields) := by
  intro rest _
  cases fields with
  | nil => rfl
  | cons field fields =>
      obtain ⟨key, v⟩ := field
      have hwritten : (object ((key, v) :: fields)).render.toList ++ rest =
          '{' :: ((renderFields ((key, v) :: fields)).toList ++ '}' :: rest) := by
        simp [render]
      have hfuel : fields.length <
          ((renderFields ((key, v) :: fields)).toList ++ '}' :: rest).length + 1 := by
        have hlength := length_le_length_renderFields ((key, v) :: fields)
        rw [List.length_cons] at hlength
        rw [List.length_append]
        omega
      obtain ⟨s, hs⟩ := exists_renderFields_eq_cons key v fields
      rw [hwritten, readValue?]
      split
      · next hend =>
          rw [hs, List.cons_append, skipBlanks_cons (by decide)] at hend
          obtain ⟨hquote, -⟩ := List.cons_eq_cons.mp hend
          cases hquote
      · rw [readFields?_render hfits hread hfuel]
        rfl

/-- What is written for a value is read back as this value, whatever follows it. -/
theorem readBy_readValue? : ∀ {depth : Nat} {v : Json}, Fits depth v → ReadBy (readValue? depth) v
  | depth, null, _ => readBy_null depth
  | depth, boolean b, _ => readBy_boolean depth b
  | depth, natural n, _ => readBy_natural depth n
  | depth, text s, _ => readBy_text depth s
  | 0, number _, h | _ + 1, number _, h => h.elim
  | 0, array _, h | 0, object _, h => h.elim
  | _ + 1, array _, h => readBy_array h fun v hv => readBy_readValue? (h v hv)
  | _ + 1, object _, h => readBy_object h fun field hfield => readBy_readValue? (h field hfield)

theorem read?_render {v : Json} (h : Fits nestingLimit v) : read? v.render = some v := by
  have hread := readBy_readValue? h [] fun _ hc => nomatch hc
  have hblanks := skipBlanks_render h []
  rw [List.append_nil] at hread hblanks
  rw [read?, hblanks, hread]
  rfl

theorem render_injective {v w : Json} (hv : Fits nestingLimit v) (hw : Fits nestingLimit w)
    (h : v.render = w.render) : v = w := by
  have hread := read?_render hv
  rw [h, read?_render hw] at hread
  exact (Option.some.inj hread).symm

/-! ### Control characters -/

/-- A text without control characters. -/
def Printable (s : String) : Prop := ∀ c ∈ s.toList, 32 ≤ c.toNat

instance : DecidablePred Printable := fun s =>
  List.decidableBAll (fun c : Char => 32 ≤ c.toNat) s.toList

theorem Printable.append {s t : String} (hs : Printable s) (ht : Printable t) :
    Printable (s ++ t) := by
  intro c hc
  rw [String.toList_append] at hc
  exact (List.mem_append.mp hc).elim (hs c) (ht c)

theorem le_toNat_hexDigit : ∀ n < 16, 32 ≤ (hexDigit n).toNat := by decide

theorem le_toNat_of_mem_escape {c d : Char} (h : d ∈ escape c) : 32 ≤ d.toNat := by
  unfold escape at h
  split at h
  case h_8 =>
    split at h
    · next hcontrol =>
        have hhigh := le_toNat_hexDigit (c.toNat / 16) (by omega)
        have hlow := le_toNat_hexDigit (c.toNat % 16) (by omega)
        simp only [List.mem_cons, List.not_mem_nil, or_false] at h
        rcases h with rfl | rfl | rfl | rfl | rfl | rfl
        iterate 4 decide
        · exact hhigh
        · exact hlow
    · next hplain =>
        obtain rfl := List.mem_singleton.mp h
        exact Nat.not_lt.mp hplain
  all_goals
    simp only [List.mem_cons, List.not_mem_nil, or_false] at h
    rcases h with rfl | rfl <;> decide

theorem printable_quote (s : String) : Printable (quote s) := by
  intro c hc
  rw [toList_quote] at hc
  rcases List.mem_cons.mp hc with rfl | hc
  · decide
  rcases List.mem_append.mp hc with hc | hc
  · obtain ⟨d, -, hd⟩ := List.mem_flatMap.mp hc
    exact le_toNat_of_mem_escape hd
  · obtain rfl := List.mem_singleton.mp hc
    decide

theorem printable_natural (n : Nat) : Printable (natural n).render := by
  intro c hc
  rw [render, Nat.toString_eq_repr, Nat.toList_repr] at hc
  have hdigit := Nat.isDigit_of_mem_toDigits (by decide) (by decide) hc
  rw [Char.isDigit, Bool.and_eq_true, decide_eq_true_eq] at hdigit
  have hle : '0'.toNat ≤ c.toNat := hdigit.1
  exact Nat.le_trans (by decide) hle

theorem printable_renderElements {vs : List Json} (h : ∀ v ∈ vs, Printable v.render) :
    Printable (renderElements vs) := by
  have hcomma : Printable "," := by decide
  induction vs with
  | nil => exact fun c hc => nomatch hc
  | cons v vs ih =>
      obtain ⟨hv, hvs⟩ := List.forall_mem_cons.mp h
      cases vs with
      | nil => exact hv
      | cons w vs =>
          rw [renderElements]
          exacts [(hv.append hcomma).append (ih hvs), List.cons_ne_nil w vs]

theorem printable_renderFields {fields : List (String × Json)}
    (h : ∀ field ∈ fields, Printable field.2.render) : Printable (renderFields fields) := by
  have hcolon : Printable ":" := by decide
  have hcomma : Printable "," := by decide
  induction fields with
  | nil => exact fun c hc => nomatch hc
  | cons field fields ih =>
      obtain ⟨key, v⟩ := field
      obtain ⟨hv, hfields⟩ := List.forall_mem_cons.mp h
      have hfield := ((printable_quote key).append hcolon).append hv
      cases fields with
      | nil => exact hfield
      | cons next fields =>
          rw [renderFields]
          exacts [(hfield.append hcomma).append (ih hfields), List.cons_ne_nil next fields]

/-- What is written for a value holds no control character. -/
theorem printable_render : ∀ {depth : Nat} {v : Json}, Fits depth v → Printable v.render
  | _, null, _ => by rw [render]; decide
  | _, boolean false, _ | _, boolean true, _ => by rw [render]; decide
  | _, natural n, _ => printable_natural n
  | _, text s, _ => by rw [render]; exact printable_quote s
  | 0, number _, h | _ + 1, number _, h => h.elim
  | 0, array _, h | 0, object _, h => h.elim
  | _ + 1, array elements, h => by
      have hopen : Printable "[" := by decide
      have hclose : Printable "]" := by decide
      have helements := printable_renderElements fun v hv => printable_render (h v hv)
      rw [render]
      exact (hopen.append helements).append hclose
  | _ + 1, object fields, h => by
      have hopen : Printable "\x7b" := by decide
      have hclose : Printable "\x7d" := by decide
      have hfields := printable_renderFields fun field hfield => printable_render (h field hfield)
      rw [render]
      exact (hopen.append hfields).append hclose

end RouteCoverage.Json
