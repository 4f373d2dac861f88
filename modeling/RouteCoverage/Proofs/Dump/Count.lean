import RouteCoverage.Dump

/-!
# The text of a count

A count is written in decimal digits, after an optional plus sign and with blanks around
(`Hits.Writes`).  A text that writes a number is read as that number, unless it exceeds the
limit (`Hits.parse?_of_writes`), and every other text is refused (`Hits.parse?_eq_some_iff`).
-/

namespace RouteCoverage

theorem isBlank_of_isDigit {c : Char} (h : c.isDigit = true) : isBlank c = false := by
  obtain ⟨hlo, hhi⟩ := Char.isDigit_iff_toNat.mp h
  have hlo' : 48 ≤ c.toNat := hlo
  have hhi' : c.toNat ≤ 57 := hhi
  simp only [isBlank, Bool.or_eq_false_iff, Bool.and_eq_false_iff, decide_eq_false_iff_not,
    beq_eq_false_iff_ne]
  omega

/-- Text that neither begins nor ends with a blank is what is left when blanks around it are
taken off. -/
theorem trimBlank_append {before text after : List Char} (hbefore : ∀ c ∈ before, isBlank c)
    (hafter : ∀ c ∈ after, isBlank c) (hfirst : text.dropWhile isBlank = text)
    (hlast : text.reverse.dropWhile isBlank = text.reverse) (hne : text ≠ []) :
    trimBlank (before ++ text ++ after) = text := by
  unfold trimBlank
  rw [List.append_assoc, List.dropWhile_append_of_pos hbefore, List.dropWhile_append, hfirst,
    if_neg (by simpa using hne), List.reverse_append,
    List.dropWhile_append_of_pos (by simpa using hafter), hlast, List.reverse_reverse]

theorem exists_trimBlank (s : List Char) :
    ∃ before after, s = before ++ trimBlank s ++ after ∧
      (∀ c ∈ before, isBlank c) ∧ ∀ c ∈ after, isBlank c := by
  have hfront : s.takeWhile isBlank ++ s.dropWhile isBlank = s := List.takeWhile_append_dropWhile
  have hback : trimBlank s ++ ((s.dropWhile isBlank).reverse.takeWhile isBlank).reverse =
      s.dropWhile isBlank := by
    rw [trimBlank, ← List.reverse_append, List.takeWhile_append_dropWhile, List.reverse_reverse]
  refine ⟨s.takeWhile isBlank, ((s.dropWhile isBlank).reverse.takeWhile isBlank).reverse, ?_,
    List.all_eq_true.mp List.all_takeWhile, fun c hc => ?_⟩
  · rw [List.append_assoc, hback, hfront]
  · exact List.all_eq_true.mp List.all_takeWhile c (List.mem_reverse.mp hc)

namespace Hits

/-- A text writes a number: decimal digits after an optional plus sign, with blanks around. -/
def Writes (text : List Char) (n : Nat) : Prop :=
  ∃ before sign digits after, text = before ++ (sign ++ digits) ++ after ∧
    (∀ c ∈ before, isBlank c) ∧ (∀ c ∈ after, isBlank c) ∧ (sign = [] ∨ sign = ['+']) ∧
    digits ≠ [] ∧ (∀ c ∈ digits, c.isDigit) ∧ Nat.ofDigitChars 10 digits 0 = n

/-- The decimal digits of a number write it. -/
theorem writes_toDigits (n : Nat) : Writes (Nat.toDigits 10 n) n :=
  ⟨[], [], Nat.toDigits 10 n, [], by simp, by simp, by simp, .inl rfl, Nat.toDigits_ne_nil,
    fun _ hc => Nat.isDigit_of_mem_toDigits (by decide) (by decide) hc,
    Nat.ofDigitChars_ten_toDigits⟩

theorem ofNat?_count (h : Hits) : ofNat? h.count = some h := dif_pos h.count_le

theorem ofDigits?_of_isDigit {digits : List Char} (hne : digits ≠ [])
    (hdigits : ∀ c ∈ digits, c.isDigit) :
    ofDigits? digits = some (Nat.ofDigitChars 10 digits 0) := by
  unfold ofDigits?
  rw [if_pos ⟨hne, List.all_eq_true.mpr hdigits⟩, Nat.ofDigitChars_eq_foldl]

theorem unsigned_of_ne {c : Char} {text : List Char} (h : c ≠ '+') :
    unsigned (c :: text) = c :: text := by
  unfold unsigned
  split
  · rename_i heq
    cases heq
    exact absurd rfl h
  · rfl

/-- A text that writes a number is read as that number, unless it exceeds the limit. -/
theorem parse?_of_writes {text : List Char} {n : Nat} (h : Writes text n) :
    parse? text = ofNat? n := by
  obtain ⟨before, sign, digits, after, rfl, hbefore, hafter, hsign, hne, hdigits, rfl⟩ := h
  have hblank : ∀ c ∈ digits, isBlank c = false := fun c hc => isBlank_of_isDigit (hdigits c hc)
  obtain ⟨first, rest, rfl⟩ := List.exists_cons_of_ne_nil hne
  have hplus : isBlank '+' = false := by decide
  have htrim : trimBlank (before ++ (sign ++ first :: rest) ++ after) = sign ++ first :: rest := by
    refine trimBlank_append hbefore hafter ?_ ?_ (by simp)
    · rcases hsign with rfl | rfl
      · exact List.dropWhile_cons_of_neg (by simp [hblank first List.mem_cons_self])
      · exact List.dropWhile_cons_of_neg (by simp [hplus])
    · obtain ⟨last, front, hlast⟩ := List.exists_cons_of_ne_nil
        (List.reverse_ne_nil_iff.mpr hne)
      have hmem : last ∈ first :: rest := by
        rw [← List.mem_reverse, hlast]
        exact List.mem_cons_self
      rw [List.reverse_append, hlast, List.cons_append]
      exact List.dropWhile_cons_of_neg (by simp [hblank last hmem])
  have hunsigned : unsigned (sign ++ first :: rest) = first :: rest := by
    rcases hsign with rfl | rfl
    · refine unsigned_of_ne fun heq => ?_
      have hdigit := hdigits first List.mem_cons_self
      rw [heq] at hdigit
      exact absurd hdigit (by decide)
    · rfl
  rw [parse?, htrim, hunsigned, ofDigits?_of_isDigit hne hdigits]
  rfl

theorem ofNat?_eq_some_iff {n : Nat} {h : Hits} : ofNat? n = some h ↔ n = h.count := by
  unfold ofNat?
  split
  · rw [Option.some.injEq]
    exact ⟨fun heq => congrArg count heq, fun heq => Hits.ext heq⟩
  · next hn => exact iff_of_false (Option.some_ne_none h).symm fun heq => hn (heq ▸ h.count_le)

theorem of_ofDigits?_eq_some {digits : List Char} {n : Nat} (h : ofDigits? digits = some n) :
    digits ≠ [] ∧ (∀ c ∈ digits, c.isDigit) ∧ Nat.ofDigitChars 10 digits 0 = n := by
  unfold ofDigits? at h
  split at h
  · next hdigits =>
      rw [← Nat.ofDigitChars_eq_foldl] at h
      exact ⟨hdigits.1, List.all_eq_true.mp hdigits.2, Option.some.inj h⟩
  · cases h

theorem exists_unsigned (text : List Char) :
    ∃ sign, (sign = [] ∨ sign = ['+']) ∧ text = sign ++ unsigned text := by
  unfold unsigned
  split
  · exact ⟨['+'], .inr rfl, rfl⟩
  · exact ⟨[], .inl rfl, rfl⟩

/-- A text is read as a hit count exactly if it writes that number. -/
theorem parse?_eq_some_iff {text : List Char} {h : Hits} :
    parse? text = some h ↔ Writes text h.count := by
  constructor
  · intro hparse
    obtain ⟨n, hdigits, hn⟩ := Option.bind_eq_some_iff.mp hparse
    obtain ⟨hne, hall, hvalue⟩ := of_ofDigits?_eq_some hdigits
    obtain ⟨before, after, htext, hbefore, hafter⟩ := exists_trimBlank text
    obtain ⟨sign, hsign, htrimmed⟩ := exists_unsigned (trimBlank text)
    refine ⟨before, sign, unsigned (trimBlank text), after, ?_, hbefore, hafter, hsign, hne, hall,
      hvalue.trans (ofNat?_eq_some_iff.mp hn)⟩
    rw [← htrimmed]
    exact htext
  · intro hwrites
    rw [parse?_of_writes hwrites, ofNat?_count]

theorem parse?_eq_none_iff {text : List Char} :
    parse? text = none ↔ ¬ ∃ h : Hits, Writes text h.count := by
  rw [Option.eq_none_iff_forall_ne_some, not_exists]
  exact forall_congr' fun h => not_congr parse?_eq_some_iff

theorem Writes.padded {text before after : List Char} {n : Nat} (h : Writes text n)
    (hbefore : ∀ c ∈ before, isBlank c) (hafter : ∀ c ∈ after, isBlank c) :
    Writes (before ++ text ++ after) n := by
  obtain ⟨before', sign, digits, after', rfl, hbefore', hafter', hrest⟩ := h
  refine ⟨before ++ before', sign, digits, after' ++ after, ?_, fun c hc => ?_, fun c hc => ?_,
    hrest⟩
  · simp only [List.append_assoc]
  · exact (List.mem_append.mp hc).elim (hbefore c) (hbefore' c)
  · exact (List.mem_append.mp hc).elim (hafter' c) (hafter c)

end Hits

end RouteCoverage
