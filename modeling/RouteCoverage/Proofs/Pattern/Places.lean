import Mathlib.Logic.Function.Iterate
import RouteCoverage.Pattern.Regex

/-!
# What expressions match

`Regex.Matches` says when an expression matches what stands between two places of a text, one case
for each kind of expression.  The sets of places that `Regex.reach` computes are those where such
matches end (`Regex.testBit_reach`): the steps of a repetition that stay in place can be left out,
so there are never more than the text has places.
-/

namespace RouteCoverage

/-- A relation holds `n` times in a row. -/
def Steps (R : Nat → Nat → Prop) : Nat → Nat → Nat → Prop
  | 0, p, q => p = q
  | n + 1, p, q => ∃ m, R p m ∧ Steps R n m q

/-- An expression matches what stands between two places of a text. -/
def Regex.Matches (text : List Char) : Regex → Nat → Nat → Prop
  | empty, p, q => p = q
  | set chars, p, q => (∃ c, text[p]? = some c ∧ chars c = true) ∧ q = p + 1
  | look condition, p, q =>
      (∃ before after, (neighbours text)[p]? = some (before, after) ∧
        condition.holds before after = true) ∧ q = p
  | seq first second, p, q => ∃ m, first.Matches text p m ∧ second.Matches text m q
  | alt left right, p, q => left.Matches text p q ∨ right.Matches text p q
  | times least most body, p, q =>
      ∃ more, (∀ m ∈ most, more ≤ m - least) ∧ Steps (body.Matches text) (least + more) p q

namespace Steps

variable {R : Nat → Nat → Prop} {n p q : Nat}

theorem add {m : Nat} : Steps R (m + n) p q ↔ ∃ k, Steps R m p k ∧ Steps R n k q := by
  induction m generalizing p with
  | zero =>
      rw [Nat.zero_add]
      exact ⟨fun h => ⟨p, rfl, h⟩, fun ⟨k, hk, h⟩ => hk ▸ h⟩
  | succ m ih =>
      rw [Nat.succ_add]
      constructor
      · rintro ⟨j, hj, h⟩
        obtain ⟨k, hk, h⟩ := ih.mp h
        exact ⟨k, ⟨j, hj, hk⟩, h⟩
      · rintro ⟨k, ⟨j, hj, hk⟩, h⟩
        exact ⟨j, hj, ih.mpr ⟨k, hk, h⟩⟩

theorem le (hR : ∀ p q, R p q → p ≤ q) (h : Steps R n p q) : p ≤ q := by
  induction n generalizing p with
  | zero => exact Nat.le_of_eq h
  | succ n ih =>
      obtain ⟨m, hm, h⟩ := h
      exact Nat.le_trans (hR p m hm) (ih h)

/-- Steps that stay in place can be left out. -/
theorem shorten (hR : ∀ p q, R p q → p ≤ q) (h : Steps R n p q) : ∃ k ≤ q - p, Steps R k p q := by
  induction n generalizing p with
  | zero => exact ⟨0, Nat.zero_le _, h⟩
  | succ n ih =>
      obtain ⟨m, hm, h⟩ := h
      obtain ⟨k, hk, hsteps⟩ := ih h
      have hpm := hR p m hm
      have hmq := hsteps.le hR
      rcases Nat.eq_or_lt_of_le hpm with rfl | hlt
      · exact ⟨k, hk, hsteps⟩
      · exact ⟨k + 1, by omega, m, hm, hsteps⟩

/-- Where every step may also stay in place, `n` steps are at most `n` steps. -/
theorem or_eq_iff : Steps (fun p q => p = q ∨ R p q) n p q ↔ ∃ k ≤ n, Steps R k p q := by
  induction n generalizing p with
  | zero =>
      refine ⟨fun h => ⟨0, Nat.le_refl 0, h⟩, fun ⟨k, hk, h⟩ => ?_⟩
      obtain rfl := Nat.le_zero.mp hk
      exact h
  | succ n ih =>
      constructor
      · rintro ⟨m, rfl | hm, h⟩
        · obtain ⟨k, hk, h⟩ := ih.mp h
          exact ⟨k, by omega, h⟩
        · obtain ⟨k, hk, h⟩ := ih.mp h
          exact ⟨k + 1, by omega, m, hm, h⟩
      · rintro ⟨k, hk, h⟩
        cases k with
        | zero => exact ⟨p, .inl rfl, ih.mpr ⟨0, Nat.zero_le n, h⟩⟩
        | succ k =>
            obtain ⟨m, hm, h⟩ := h
            exact ⟨m, .inr hm, ih.mpr ⟨k, by omega, h⟩⟩

end Steps

/-! ### Steps on sets of places -/

/-- A step on sets of places goes wherever a relation leads. -/
def Leads (step : Nat → Nat) (R : Nat → Nat → Prop) : Prop :=
  ∀ s q, (step s).testBit q = true ↔ ∃ p, s.testBit p = true ∧ R p q

namespace Leads

variable {step : Nat → Nat} {R : Nat → Nat → Prop}

theorem iterate (h : Leads step R) (n : Nat) : Leads step^[n] (Steps R n) := by
  intro s q
  induction n generalizing s with
  | zero => exact ⟨fun hq => ⟨q, hq, rfl⟩, fun ⟨p, hp, hpq⟩ => hpq ▸ hp⟩
  | succ n ih =>
      rw [Function.iterate_succ_apply, ih]
      constructor
      · rintro ⟨m, hm, hsteps⟩
        obtain ⟨p, hp, hpm⟩ := (h s m).mp hm
        exact ⟨p, hp, m, hpm, hsteps⟩
      · rintro ⟨p, hp, m, hpm, hsteps⟩
        exact ⟨m, (h s m).mpr ⟨p, hp, hpm⟩, hsteps⟩

theorem widen (h : Leads step R) : Leads (fun s => s ||| step s) fun p q => p = q ∨ R p q := by
  intro s q
  rw [Nat.testBit_or, Bool.or_eq_true, h s q]
  constructor
  · rintro (hq | ⟨p, hp, hpq⟩)
    · exact ⟨q, hq, .inl rfl⟩
    · exact ⟨p, hp, .inr hpq⟩
  · rintro ⟨p, hp, rfl | hpq⟩
    · exact .inl hp
    · exact .inr ⟨p, hp, hpq⟩

end Leads

theorem exactly_eq_iterate (step : Nat → Nat) (n s : Nat) : exactly step n s = step^[n] s := by
  induction n generalizing s with
  | zero => rfl
  | succ n ih =>
      rw [exactly]
      split
      · next h => exact (Function.iterate_fixed h (n + 1)).symm
      · rw [Function.iterate_succ_apply, ih]

theorem upTo_eq_iterate (step : Nat → Nat) (n s : Nat) :
    upTo step n s = (fun s => s ||| step s)^[n] s := by
  induction n generalizing s with
  | zero => rfl
  | succ n ih =>
      rw [upTo]
      split
      · next h => exact (@Function.iterate_fixed _ (fun s => s ||| step s) s h (n + 1)).symm
      · rw [Function.iterate_succ_apply, ih]

theorem Leads.exactly {step : Nat → Nat} {R : Nat → Nat → Prop} (h : Leads step R) (n : Nat) :
    Leads (exactly step n) (Steps R n) := by
  intro s q
  rw [exactly_eq_iterate]
  exact h.iterate n s q

theorem Leads.upTo {step : Nat → Nat} {R : Nat → Nat → Prop} (h : Leads step R) (n : Nat) :
    Leads (upTo step n) fun p q => ∃ k ≤ n, Steps R k p q := by
  intro s q
  rw [upTo_eq_iterate, h.widen.iterate n s q]
  simp only [Steps.or_eq_iff]

/-! ### Reach -/

namespace Regex

variable {text : List Char} {r : Regex} {p q : Nat}

/-- A match ends behind its beginning; unless it is empty, it ends in the text. -/
theorem Matches.bounds (h : r.Matches text p q) : p ≤ q ∧ (p = q ∨ q ≤ text.length) := by
  induction r generalizing p q with
  | empty => exact ⟨Nat.le_of_eq h, .inl h⟩
  | set chars =>
      obtain ⟨⟨c, hc, -⟩, rfl⟩ := h
      have hlt := (List.getElem?_eq_some_iff.mp hc).1
      exact ⟨Nat.le_succ p, .inr hlt⟩
  | look condition =>
      obtain ⟨-, rfl⟩ := h
      exact ⟨Nat.le_refl q, .inl rfl⟩
  | seq first second ihfirst ihsecond =>
      obtain ⟨m, hfirst, hsecond⟩ := h
      have hpm := ihfirst hfirst
      have hmq := ihsecond hsecond
      omega
  | alt left right ihleft ihright =>
      rcases h with h | h
      · exact ihleft h
      · exact ihright h
  | times least most body ih =>
      obtain ⟨more, -, h⟩ := h
      generalize least + more = n at h
      induction n generalizing p with
      | zero => exact ⟨Nat.le_of_eq h, .inl h⟩
      | succ n ihn =>
          obtain ⟨m, hm, h⟩ := h
          have hpm := ih hm
          have hmq := ihn h
          omega

/-- A match of any number of repetitions has few enough of them. -/
theorem exists_steps_le {n : Nat} (h : Steps (r.Matches text) n p q) :
    ∃ k ≤ text.length + 1, Steps (r.Matches text) k p q := by
  have hmatch : (times n (some n) r).Matches text p q := ⟨0, fun _ _ => Nat.zero_le _, h⟩
  have hbounds := hmatch.bounds
  obtain ⟨k, hk, hsteps⟩ := h.shorten fun _ _ hstep => hstep.bounds.1
  exact ⟨k, by omega, hsteps⟩

theorem testBit_places_map {α : Type} (l : List α) (has : α → Bool) (p : Nat) :
    (places (l.map has)).testBit p = true ↔ ∃ a, l[p]? = some a ∧ has a = true := by
  rw [testBit_places, List.getElem?_map]
  cases l[p]? <;> simp

/-- The places that are computed are those where matches end. -/
theorem testBit_reach (text : List Char) (r : Regex) : Leads (r.reach text) (r.Matches text) := by
  induction r with
  | empty => exact fun s q => ⟨fun hq => ⟨q, hq, rfl⟩, fun ⟨p, hp, hpq⟩ => hpq ▸ hp⟩
  | set chars =>
      intro s q
      rw [reach, Nat.testBit_shiftLeft, Nat.testBit_and, Bool.and_eq_true, Bool.and_eq_true,
        testBit_places_map, decide_eq_true_iff]
      constructor
      · rintro ⟨hq, hs, hchar⟩
        exact ⟨q - 1, hs, hchar, by omega⟩
      · rintro ⟨p, hs, hchar, rfl⟩
        exact ⟨Nat.le_add_left 1 p, hs, hchar⟩
  | look condition =>
      intro s q
      rw [reach, Nat.testBit_and, Bool.and_eq_true, testBit_places_map]
      constructor
      · rintro ⟨hs, ⟨before, after⟩, hat, hholds⟩
        exact ⟨q, hs, ⟨before, after, hat, hholds⟩, rfl⟩
      · rintro ⟨p, hs, ⟨before, after, hat, hholds⟩, rfl⟩
        exact ⟨hs, (before, after), hat, hholds⟩
  | seq first second ihfirst ihsecond =>
      intro s q
      rw [reach, ihsecond]
      constructor
      · rintro ⟨m, hm, hsecond⟩
        obtain ⟨p, hp, hfirst⟩ := (ihfirst s m).mp hm
        exact ⟨p, hp, m, hfirst, hsecond⟩
      · rintro ⟨p, hp, m, hfirst, hsecond⟩
        exact ⟨m, (ihfirst s m).mpr ⟨p, hp, hfirst⟩, hsecond⟩
  | alt left right ihleft ihright =>
      intro s q
      rw [reach, Nat.testBit_or, Bool.or_eq_true, ihleft, ihright]
      constructor
      · rintro (⟨p, hp, h⟩ | ⟨p, hp, h⟩)
        · exact ⟨p, hp, .inl h⟩
        · exact ⟨p, hp, .inr h⟩
      · rintro ⟨p, hp, h | h⟩
        · exact .inl ⟨p, hp, h⟩
        · exact .inr ⟨p, hp, h⟩
  | times least most body ih =>
      intro s q
      rw [reach.eq_def]
      dsimp only
      rw [(ih.upTo _) _ q]
      constructor
      · rintro ⟨m, hm, more, hmore, hsteps⟩
        obtain ⟨p, hp, hleast⟩ := (ih.exactly least s m).mp hm
        refine ⟨p, hp, more, fun limit hlimit => ?_, Steps.add.mpr ⟨m, hleast, hsteps⟩⟩
        obtain rfl := Option.mem_def.mp hlimit
        exact hmore
      · rintro ⟨p, hp, more, hmore, hsteps⟩
        obtain ⟨m, hleast, hsteps⟩ := Steps.add.mp hsteps
        refine ⟨m, (ih.exactly least s m).mpr ⟨p, hp, hleast⟩, ?_⟩
        cases most with
        | some limit => exact ⟨more, hmore limit rfl, hsteps⟩
        | none => exact exists_steps_le hsteps

theorem testBit_allPlaces (text : List Char) (p : Nat) :
    (allPlaces text).testBit p = true ↔ p ≤ text.length := by
  rw [allPlaces, Nat.one_shiftLeft, Nat.testBit_two_pow_sub_one, decide_eq_true_iff,
    Nat.lt_succ_iff]

theorem isFoundIn_iff {r : Regex} {text : List Char} :
    r.isFoundIn text = true ↔ ∃ p q, p ≤ text.length ∧ r.Matches text p q := by
  rw [isFoundIn, bne_iff_ne]
  constructor
  · intro h
    obtain ⟨q, hq⟩ := Nat.exists_testBit_of_ne_zero h
    obtain ⟨p, hp, hmatch⟩ := (testBit_reach text r _ q).mp hq
    exact ⟨p, q, (testBit_allPlaces text p).mp hp, hmatch⟩
  · rintro ⟨p, q, hp, hmatch⟩ hzero
    have hq := (testBit_reach text r _ q).mpr ⟨p, (testBit_allPlaces text p).mpr hp, hmatch⟩
    rw [hzero, Nat.zero_testBit] at hq
    exact absurd hq (by decide)

/-! ### Expressions one after another -/

theorem matches_textStart : (look .textStart).Matches text p q ↔ p = 0 ∧ q = 0 := by
  constructor
  · rintro ⟨⟨before, after, hat, hholds⟩, rfl⟩
    cases q with
    | zero => exact ⟨rfl, rfl⟩
    | succ q =>
        have hbefore := (List.getElem?_zip_eq_some.mp hat).1
        rw [List.getElem?_cons_succ, List.getElem?_map] at hbefore
        obtain ⟨c, -, rfl⟩ := Option.map_eq_some_iff.mp hbefore
        cases hholds
  · rintro ⟨rfl, rfl⟩
    cases text <;> exact ⟨⟨none, _, rfl, rfl⟩, rfl⟩

theorem matches_textEnd : (look .textEnd).Matches text p q ↔ p = text.length ∧ q = text.length := by
  constructor
  · rintro ⟨⟨before, after, hat, hholds⟩, rfl⟩
    have hafter := (List.getElem?_zip_eq_some.mp hat).2
    have hlt := (List.getElem?_eq_some_iff.mp hafter).1
    rw [List.length_append, List.length_map, List.length_singleton] at hlt
    rcases Nat.lt_succ_iff_lt_or_eq.mp hlt with hlt | rfl
    · rw [List.getElem?_append_left (by simpa using hlt), List.getElem?_map] at hafter
      obtain ⟨c, -, rfl⟩ := Option.map_eq_some_iff.mp hafter
      cases hholds
    · exact ⟨rfl, rfl⟩
  · rintro ⟨rfl, rfl⟩
    have hlt : text.length < (none :: text.map some).length := by simp
    refine ⟨⟨_, none, List.getElem?_zip_eq_some.mpr ⟨List.getElem?_eq_getElem hlt, ?_⟩, rfl⟩, rfl⟩
    simp

theorem matches_seqAll_cons (r : Regex) (rs : List Regex) :
    (seqAll (r :: rs)).Matches text p q ↔
      ∃ m, r.Matches text p m ∧ (seqAll rs).Matches text m q := by
  cases rs with
  | nil => exact ⟨fun h => ⟨q, h, rfl⟩, fun ⟨m, h, hm⟩ => hm ▸ h⟩
  | cons r' rs => exact Iff.rfl

theorem matches_seqAll_append (rs rs' : List Regex) :
    (seqAll (rs ++ rs')).Matches text p q ↔
      ∃ m, (seqAll rs).Matches text p m ∧ (seqAll rs').Matches text m q := by
  induction rs generalizing p with
  | nil => exact ⟨fun h => ⟨p, rfl, h⟩, fun ⟨m, hm, h⟩ => hm ▸ h⟩
  | cons r rs ih =>
      simp only [List.cons_append, matches_seqAll_cons, ih]
      constructor
      · rintro ⟨j, hj, m, hm, h⟩
        exact ⟨m, ⟨j, hj, hm⟩, h⟩
      · rintro ⟨m, ⟨j, hj, hm⟩, h⟩
        exact ⟨j, hj, m, hm, h⟩

/-- Expressions between the conditions for both ends are found where they match a whole text. -/
theorem isFoundIn_whole (rs : List Regex) (text : List Char) :
    (seqAll (look .textStart :: rs ++ [look .textEnd])).isFoundIn text = true ↔
      (seqAll rs).Matches text 0 text.length := by
  have hends (p q : Nat) : (seqAll (look .textStart :: rs ++ [look .textEnd])).Matches text p q ↔
      p = 0 ∧ (seqAll rs).Matches text 0 text.length ∧ q = text.length := by
    rw [List.cons_append, matches_seqAll_cons]
    simp only [matches_seqAll_append, seqAll, matches_textStart, matches_textEnd]
    constructor
    · rintro ⟨-, ⟨rfl, rfl⟩, -, h, rfl, rfl⟩
      exact ⟨rfl, h, rfl⟩
    · rintro ⟨rfl, h, rfl⟩
      exact ⟨0, ⟨rfl, rfl⟩, text.length, h, rfl, rfl⟩
  rw [isFoundIn_iff]
  constructor
  · rintro ⟨p, q, -, h⟩
    exact ((hends p q).mp h).2.1
  · intro h
    exact ⟨0, text.length, Nat.zero_le _, (hends 0 text.length).mpr ⟨rfl, h, rfl⟩⟩

end Regex

end RouteCoverage
