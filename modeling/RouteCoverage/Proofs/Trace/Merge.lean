import Mathlib.Data.List.Induction
import RouteCoverage.Trace

/-!
# Merging any number of runs

Merging works on every position on its own (`getElem?_merge`).  After any number of runs a
position has the name that the first run reaching it has there, and the capped sum of what all
runs with that name count there (`getElem?_mergeAll`): adding with a limit at every step is the
same as adding once and stopping at the limit (`Hits.ofNat_add`).

A merged trace only grows (`Grows`): one merge keeps every position and its name and lowers no
count (`grows_merge`), and so do any number of merges (`grows_mergeAll`).  The closed form with
the length and the growth is `mergeAll_closed_form`.
-/

namespace RouteCoverage

namespace Hits

theorem ofNat_add (n : Nat) (h : Hits) : ofNat n + h = ofNat (n + h.count) := by
  apply Hits.ext
  simp only [count_add, count_ofNat]
  omega

theorem ofNat_count (h : Hits) : ofNat h.count = h :=
  Hits.ext (Nat.min_eq_right h.count_le)

end Hits

namespace Trace

/-- What a position holds after a merge. -/
def mergeAt : Option Record → Option Record → Option Record
  | none, new => new
  | some old, none => some old
  | some old, some new =>
      some (if old.name = new.name then { old with hits := old.hits + new.hits } else old)

/-- Merging works on every position on its own. -/
theorem getElem?_merge (merged run : Trace) (i : Nat) :
    (merge merged run)[i]? = mergeAt merged[i]? run[i]? := by
  induction merged generalizing run i with
  | nil => rw [merge_nil_left, List.getElem?_nil]; rfl
  | cons old merged ih =>
      cases run with
      | nil =>
          rw [merge_nil_right, List.getElem?_nil]
          cases (old :: merged : Trace)[i]? <;> rfl
      | cons new run =>
          cases i with
          | zero => rfl
          | succ i => exact ih run i

theorem mergeAll_append_singleton (runs : List Trace) (run : Trace) :
    mergeAll (runs ++ [run]) = merge (mergeAll runs) run := by
  rw [mergeAll, mergeAll, List.foldl_append]
  rfl

/-- The name that the first run with more than `i` records has at position `i`. -/
def nameAt (runs : List Trace) (i : Nat) : Option String :=
  runs.findSome? fun t => (t[i]?).map Record.name

theorem nameAt_append_singleton (runs : List Trace) (run : Trace) (i : Nat) :
    nameAt (runs ++ [run]) i = (nameAt runs i).or ((run[i]?).map Record.name) := by
  rw [nameAt, List.findSome?_append, List.findSome?_singleton]
  rfl

/-- What a run counts at position `i` for a step named `name`. -/
def countAt (run : Trace) (i : Nat) (name : String) : Nat :=
  match run[i]? with
  | some r => if r.name = name then r.hits.count else 0
  | none => 0

/-- What all runs together count at position `i` for a step named `name`. -/
def totalAt (runs : List Trace) (i : Nat) (name : String) : Nat :=
  runs.foldr (fun run total => countAt run i name + total) 0

theorem totalAt_append_singleton (runs : List Trace) (run : Trace) (i : Nat) (name : String) :
    totalAt (runs ++ [run]) i name = totalAt runs i name + countAt run i name := by
  induction runs with
  | nil => simp [totalAt]
  | cons first runs ih =>
      rw [List.cons_append, totalAt, totalAt, List.foldr_cons, List.foldr_cons, ← totalAt,
        ← totalAt, ih, Nat.add_assoc]

/-- At a position that no run reaches, nothing is counted. -/
theorem totalAt_of_nameAt_eq_none {runs : List Trace} {i : Nat} (h : nameAt runs i = none)
    (name : String) : totalAt runs i name = 0 := by
  induction runs with
  | nil => rfl
  | cons run runs ih =>
      rw [nameAt, List.findSome?_cons] at h
      cases hrun : run[i]? with
      | none =>
          rw [hrun] at h
          rw [totalAt, List.foldr_cons, ← totalAt, ih h, countAt, hrun]
      | some r =>
          rw [hrun] at h
          cases h

/-- The closed form of merging: a position holds the name of the first run that reaches it and
the capped sum of the counts of that name. -/
theorem getElem?_mergeAll (runs : List Trace) (i : Nat) :
    (mergeAll runs)[i]? =
      (nameAt runs i).map fun name => ⟨name, .ofNat (totalAt runs i name)⟩ := by
  -- on the runs from the last one, which is the one merged last
  induction runs using List.reverseRecOn with
  | nil => rfl
  | append_singleton runs run ih =>
      rw [mergeAll_append_singleton, getElem?_merge, ih, nameAt_append_singleton]
      cases hold : nameAt runs i with
      | some name =>
          cases hnew : run[i]? with
          | none => simp [mergeAt, totalAt_append_singleton, countAt, hnew]
          | some new =>
              simp only [Option.map_some, Option.or_some, mergeAt, totalAt_append_singleton,
                countAt, hnew, eq_comm (a := new.name)]
              by_cases heq : name = new.name
              · simp [heq, Hits.ofNat_add]
              · simp [heq]
      | none =>
          cases hnew : run[i]? with
          | none => rfl
          | some new =>
              simp [mergeAt, totalAt_append_singleton, countAt, hnew,
                totalAt_of_nameAt_eq_none hold, Hits.ofNat_count]

/-! ### The length of a merged trace -/

theorem length_merge (merged run : Trace) :
    (merge merged run).length = max merged.length run.length := by
  induction merged generalizing run with
  | nil => simp
  | cons old merged ih =>
      cases run with
      | nil => simp
      | cons new run =>
          rw [merge, List.length_cons, ih, List.length_cons, List.length_cons]
          omega

/-- The number of records of the longest run. -/
def longest (runs : List Trace) : Nat := (runs.map List.length).foldr max 0

theorem longest_append_singleton (runs : List Trace) (run : Trace) :
    longest (runs ++ [run]) = max (longest runs) run.length := by
  unfold longest
  induction runs with
  | nil => simp
  | cons first runs ih =>
      rw [List.cons_append, List.map_cons, List.map_cons, List.foldr_cons, List.foldr_cons, ih,
        Nat.max_assoc]

/-- The merged trace is as long as the longest run. -/
theorem length_mergeAll (runs : List Trace) : (mergeAll runs).length = longest runs := by
  induction runs using List.reverseRecOn with
  | nil => rfl
  | append_singleton runs run ih =>
      rw [mergeAll_append_singleton, length_merge, ih, longest_append_singleton]

/-! ### Growth -/

/-- Every position of `old` is one of `new`, with the same name and at least the same count. -/
def Grows (old new : Trace) : Prop :=
  ∀ (i : Nat) (r : Record), old[i]? = some r →
    ∃ r' : Record, new[i]? = some r' ∧ r'.name = r.name ∧ r.hits.count ≤ r'.hits.count

theorem Grows.refl (t : Trace) : Grows t t := fun _ r hr => ⟨r, hr, rfl, Nat.le_refl _⟩

theorem Grows.trans {t u v : Trace} (h : Grows t u) (h' : Grows u v) : Grows t v := by
  intro i r hr
  obtain ⟨r', hr', hname, hle⟩ := h i r hr
  obtain ⟨r'', hr'', hname', hle'⟩ := h' i r' hr'
  exact ⟨r'', hr'', hname'.trans hname, Nat.le_trans hle hle'⟩

/-- A trace that grows is not shortened. -/
theorem Grows.length_le {t u : Trace} (h : Grows t u) : t.length ≤ u.length := by
  by_contra hlt
  have hlast : u.length < t.length := by omega
  obtain ⟨r', hr', -⟩ := h u.length _ (List.getElem?_eq_getElem hlast)
  rw [List.getElem?_eq_none (Nat.le_refl _)] at hr'
  cases hr'

theorem grows_merge (merged run : Trace) : Grows merged (merge merged run) := by
  intro i old hold
  rw [getElem?_merge, hold]
  cases run[i]? with
  | none => exact ⟨old, rfl, rfl, Nat.le_refl _⟩
  | some new =>
      refine ⟨_, rfl, ?_⟩
      by_cases hname : old.name = new.name
      · rw [if_pos hname, Hits.count_add]
        have hlimit : old.hits.count ≤ Hits.limit := old.hits.count_le
        exact ⟨rfl, by omega⟩
      · rw [if_neg hname]
        exact ⟨rfl, Nat.le_refl _⟩

theorem grows_mergeAll (runs more : List Trace) :
    Grows (mergeAll runs) (mergeAll (runs ++ more)) := by
  induction more using List.reverseRecOn with
  | nil =>
      rw [List.append_nil]
      exact Grows.refl _
  | append_singleton more run ih =>
      rw [← List.append_assoc, mergeAll_append_singleton]
      exact ih.trans (grows_merge _ run)

/-! ### The closed form -/

/-- The name of a position is that of the first run that has more records. -/
theorem nameAt_eq_some_iff {runs : List Trace} {i : Nat} {name : String} :
    nameAt runs i = some name ↔
      ∃ before run after, runs = before ++ run :: after ∧ (∀ t ∈ before, t.length ≤ i) ∧
        (run[i]?).map Record.name = some name := by
  have hshort : ∀ t : Trace, (t[i]?).map Record.name = none ↔ t.length ≤ i := by
    intro t
    rw [Option.map_eq_none_iff, List.getElem?_eq_none_iff]
  simp only [nameAt, List.findSome?_eq_some_iff, hshort]
  constructor
  · rintro ⟨before, run, after, hruns, hname, hbefore⟩
    exact ⟨before, run, after, hruns, hbefore, hname⟩
  · rintro ⟨before, run, after, hruns, hbefore, hname⟩
    exact ⟨before, run, after, hruns, hname, hbefore⟩

/-- The closed form of merging any number of runs.  The merged trace is as long as the longest
run; a position has the name that the first run with more records has there, and counts the sum
of what all runs with this name at the position count, stopped at the limit; and merging more
runs shortens nothing, renames no position and lowers no count. -/
theorem mergeAll_closed_form (runs : List Trace) :
    (mergeAll runs).length = longest runs ∧
      (∀ i r, (mergeAll runs)[i]? = some r ↔
        (∃ before run after, runs = before ++ run :: after ∧ (∀ t ∈ before, t.length ≤ i) ∧
          (run[i]?).map Record.name = some r.name) ∧
        r.hits.count = min Hits.limit (totalAt runs i r.name)) ∧
      ∀ more, (mergeAll runs).length ≤ (mergeAll (runs ++ more)).length ∧
        Grows (mergeAll runs) (mergeAll (runs ++ more)) := by
  refine ⟨length_mergeAll runs, fun i r => ?_, fun more =>
    ⟨(grows_mergeAll runs more).length_le, grows_mergeAll runs more⟩⟩
  rw [getElem?_mergeAll, Option.map_eq_some_iff, ← nameAt_eq_some_iff]
  constructor
  · rintro ⟨name, hname, rfl⟩
    exact ⟨hname, rfl⟩
  · rintro ⟨hname, hcount⟩
    refine ⟨r.name, hname, ?_⟩
    have hhits : Hits.ofNat (totalAt runs i r.name) = r.hits := Hits.ext hcount.symm
    rw [hhits]

end Trace

end RouteCoverage
