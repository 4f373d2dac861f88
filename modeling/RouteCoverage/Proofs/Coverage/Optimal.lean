import Mathlib.Order.Bounds.Basic
import RouteCoverage.Proofs.Coverage.Greedy

/-!
# Greedy matching is optimal

A trace serves the steps of a route as far as any matching in order can.  `Trace.taken` counts
the rows that take a record; the first `k` rows can be matched at all exactly if `k` is at most
this number (`le_taken_iff`), since a name that is matched can always be matched with its first
record (`cons_sublist_map_name_iff`).  The other statements say what a change of the trace does to
the coverage: records of names that are not in the route play no part, and records put at the end
leave every step alone that was served before.  `matched_isGreatest` puts this together for the
tree of a route.
-/

namespace RouteCoverage

namespace Trace

/-- How many rows take a record when they are served from the front of a trace. -/
def taken : List Row → Trace → Nat
  | [], _ => 0
  | r :: rows, trace =>
      (if (trace.take? r.name).isSome then 1 else 0) + taken rows (trace.serve r.name).2

/-! ### Taking a record -/

section

variable {name : String} {t : Trace} {hits : Hits} {rest : Trace}

theorem serve_of_take?_eq_some (h : t.take? name = some (hits, rest)) :
    t.serve name = (hits, rest) := by
  rw [serve, h]
  rfl

theorem serve_of_take?_eq_none (h : t.take? name = none) : t.serve name = (.zero, []) := by
  rw [serve, h]
  rfl

/-- A name has a first record if a record has the name. -/
theorem take?_eq_none_iff : t.take? name = none ↔ ∀ r ∈ t, r.name ≠ name := by
  induction t with
  | nil => simp [take?]
  | cons r t ih => by_cases hname : r.name = name <;> simp [take?, hname, ih]

theorem take?_drop_of_noneFrom {start : Nat} (h : t.NoneFrom start name) :
    take? name (t.drop start) = none := by
  rw [take?_eq_none_iff]
  intro r hr
  obtain ⟨i, hi⟩ := List.mem_iff_getElem?.mp hr
  rw [List.getElem?_drop] at hi
  exact h (start + i) r (Nat.le_add_right start i) hi

theorem take?_drop_of_firstFrom {start p : Nat} (hfirst : t.FirstFrom start name p)
    (hserve : serve name (t.drop start) = (hits, rest)) :
    take? name (t.drop start) = some (hits, rest) := by
  cases h : take? name (t.drop start) with
  | none =>
      obtain ⟨r, hr, hname⟩ := hfirst.named
      have hdrop : (t.drop start)[p - start]? = some r := by
        rw [List.getElem?_drop, Nat.add_sub_cancel' hfirst.start_le, hr]
      exact absurd hname (take?_eq_none_iff.mp h r (List.mem_of_getElem? hdrop))
  | some found =>
      rw [serve, h] at hserve
      exact congrArg some hserve

theorem take?_append (name : String) (t more : Trace) :
    take? name (t ++ more) =
      match t.take? name with
      | some (hits, rest) => some (hits, rest ++ more)
      | none => more.take? name := by
  induction t with
  | nil => rfl
  | cons r t ih =>
      by_cases hname : r.name = name
      · simp only [List.cons_append, take?, if_pos hname]
      · simp only [List.cons_append, take?, if_neg hname]
        exact ih

theorem take?_filter {p : Record → Bool} (hp : ∀ r : Record, r.name = name → p r = true)
    (t : Trace) :
    take? name (t.filter p) = (t.take? name).map fun (hits, rest) => (hits, rest.filter p) := by
  induction t with
  | nil => rfl
  | cons r t ih =>
      by_cases hname : r.name = name
      · rw [List.filter_cons_of_pos (hp r hname)]
        simp only [take?, if_pos hname, Option.map_some]
      · by_cases hr : p r = true
        · rw [List.filter_cons_of_pos hr]
          simp only [take?, if_neg hname]
          exact ih
        · rw [List.filter_cons_of_neg hr]
          simp only [take?, if_neg hname]
          exact ih

/-- A name in front of others is found in a trace, in order, exactly if it has a first record and
the others are found behind that. -/
theorem cons_sublist_map_name_iff {names : List String} :
    (name :: names).Sublist (t.map Record.name) ↔
      ∃ hits rest, t.take? name = some (hits, rest) ∧ names.Sublist (rest.map Record.name) := by
  induction t with
  | nil => simp [take?]
  | cons r t ih =>
      rw [List.map_cons, List.cons_sublist_cons']
      by_cases hname : r.name = name
      · -- the exchange: whichever record the name was matched with, the first one does as well
        simp only [take?, if_pos hname, Option.some.injEq, Prod.mk.injEq]
        constructor
        · rintro (h | ⟨-, h⟩)
          · exact ⟨r.hits, t, ⟨rfl, rfl⟩, (List.sublist_cons_self name names).trans h⟩
          · exact ⟨r.hits, t, ⟨rfl, rfl⟩, h⟩
        · rintro ⟨_, _, ⟨-, rfl⟩, h⟩
          exact .inr ⟨hname.symm, h⟩
      · simp only [take?, if_neg hname, ← ih]
        constructor
        · rintro (h | ⟨h, -⟩)
          · exact h
          · exact absurd h.symm hname
        · exact fun h => .inl h

end

/-! ### How many rows are served -/

@[simp] theorem taken_nil_right (rows : List Row) : taken rows [] = 0 := by
  induction rows with
  | nil => rfl
  | cons r rows ih => rw [taken, serve_of_take?_eq_none rfl, ih]; rfl

theorem taken_cons_of_some {r : Row} {rows : List Row} {t rest : Trace} {hits : Hits}
    (h : t.take? r.name = some (hits, rest)) : taken (r :: rows) t = taken rows rest + 1 := by
  rw [taken, serve_of_take?_eq_some h, h, Nat.add_comm]
  rfl

theorem taken_cons_of_none {r : Row} {rows : List Row} {t : Trace}
    (h : t.take? r.name = none) : taken (r :: rows) t = 0 := by
  rw [taken, serve_of_take?_eq_none h, h, taken_nil_right]
  rfl

/-- The rows that can be matched in order are those that are served. -/
theorem le_taken_iff {rows : List Row} : ∀ {t : Trace} {k : Nat}, k ≤ taken rows t ↔
    k ≤ rows.length ∧ ((rows.map Row.name).take k).Sublist (t.map Record.name) := by
  induction rows with
  | nil =>
      intro t k
      simp [taken]
  | cons r rows ih =>
      intro t k
      cases k with
      | zero => simp
      | succ k =>
          rw [List.map_cons, List.take_succ_cons, cons_sublist_map_name_iff, List.length_cons]
          cases htake : t.take? r.name with
          | none => simp [taken_cons_of_none htake]
          | some found =>
              obtain ⟨hits, rest⟩ := found
              rw [taken_cons_of_some htake, Nat.add_le_add_iff_right, Nat.add_le_add_iff_right,
                ih]
              simp

theorem taken_le_of_sublist (rows : List Row) {t u : Trace} (h : t.Sublist u) :
    taken rows t ≤ taken rows u := by
  obtain ⟨hlength, hnames⟩ := le_taken_iff.mp (Nat.le_refl (taken rows t))
  exact le_taken_iff.mpr ⟨hlength, hnames.trans (h.map Record.name)⟩

end Trace

namespace Greedy

variable {t : Trace}

theorem length_eq_taken {rows : List Row} : ∀ {start : Nat} {served : List Nat},
    Greedy t start (cover rows (t.drop start)).1 served →
      served.length = Trace.taken rows (t.drop start) := by
  induction rows with
  | nil => exact fun h => Nat.le_zero.mp h.length_le
  | cons r rows ih =>
      intro start served h
      rw [cover_cons] at h
      rcases t.serve_drop start r.name with ⟨p, rec, hfirst, -, hserve⟩ | ⟨hnone, hserve⟩
      · rw [hserve] at h
        rw [Trace.taken_cons_of_some (Trace.take?_drop_of_firstFrom hfirst hserve)]
        cases served with
        | nil =>
            obtain ⟨r', hr', hname⟩ := hfirst.named
            exact absurd hname (h.of_nil.1 p r' hfirst.start_le hr')
        | cons p' served =>
            obtain ⟨hfirst', -, hrest⟩ := h.of_cons
            obtain rfl : p = p' := hfirst.unique hfirst'
            rw [List.length_cons, ih hrest]
      · rw [Trace.taken_cons_of_none (Trace.take?_drop_of_noneFrom hnone)]
        cases served with
        | nil => rfl
        | cons p served =>
            obtain ⟨hfirst, -, -⟩ := h.of_cons
            obtain ⟨r', hr', hname⟩ := hfirst.named
            exact absurd hname (hnone p r' hfirst.start_le hr')

end Greedy

/-! ### Changes of the trace -/

/-- Records of names that no row has play no part. -/
theorem cover_filter {rows : List Row} {p : Record → Bool} : ∀ (t : Trace),
    (∀ r ∈ rows, ∀ rec : Record, rec.name = r.name → p rec = true) →
      (cover rows (t.filter p)).1 = (cover rows t).1 := by
  induction rows with
  | nil => intros; rfl
  | cons r rows ih =>
      intro t hp
      have hrest := fun r' hr' => hp r' (List.mem_cons_of_mem r hr')
      have htake := Trace.take?_filter (hp r List.mem_cons_self) t
      rw [cover_cons, cover_cons]
      cases h : t.take? r.name with
      | none =>
          rw [h] at htake
          rw [Trace.serve_of_take?_eq_none h, Trace.serve_of_take?_eq_none htake]
      | some found =>
          obtain ⟨hits, rest⟩ := found
          rw [h] at htake
          rw [Trace.serve_of_take?_eq_some h, Trace.serve_of_take?_eq_some htake]
          exact congrArg (_ :: ·) (ih rest hrest)

/-- Records put at the end leave the rows alone that were served without them. -/
theorem take_cover_append (more : Trace) {rows : List Row} : ∀ t : Trace,
    (cover rows (t ++ more)).1.take (t.taken rows) = (cover rows t).1.take (t.taken rows) := by
  induction rows with
  | nil => intros; rfl
  | cons r rows ih =>
      intro t
      have htake := Trace.take?_append r.name t more
      cases h : t.take? r.name with
      | none => rw [Trace.taken_cons_of_none h, List.take_zero, List.take_zero]
      | some found =>
          obtain ⟨hits, rest⟩ := found
          rw [h] at htake
          rw [Trace.taken_cons_of_some h, cover_cons, cover_cons,
            Trace.serve_of_take?_eq_some h, Trace.serve_of_take?_eq_some htake,
            List.take_succ_cons, List.take_succ_cons]
          exact congrArg (_ :: ·) (ih rest)

/-! ### The coverage of a route -/

/-- How many steps of a route take a record of a trace. -/
def Step.matched (root : Step) (t : Trace) : Nat := Trace.taken (root.rows 0) t

/-- The coverage of a route by a trace matches as many steps as possible.  The steps that take a
record are the first `root.matched t` ones in pre-order, and this is the greatest number `k` for
which the names of the first `k` steps are found in the trace in order.  A trace with further
records anywhere matches at least as many steps; a trace that differs only by records of names
that no step has gives the same coverage; and with further records at the end every step that took
a record before keeps its entry. -/
theorem matched_isGreatest (root : Step) (t : Trace) :
    let names := (root.rows 0).map Row.name
    ((∃ served, Greedy t 0 (aggregate root t) served) ∧
      ∀ served, Greedy t 0 (aggregate root t) served → served.length = root.matched t) ∧
    IsGreatest {k | k ≤ root.size ∧ (names.take k).Sublist (t.map Record.name)}
      (root.matched t) ∧
    (∀ u : Trace, t.Sublist u → root.matched t ≤ root.matched u) ∧
    (∀ u : Trace, u.filter (·.name ∈ names) = t.filter (·.name ∈ names) →
      aggregate root u = aggregate root t) ∧
    ∀ (more : Trace) (i : Nat), i < root.matched t →
      (aggregate root (t ++ more))[i]? = (aggregate root t)[i]? := by
  intro names
  refine ⟨⟨?_, fun served h => ?_⟩, ⟨?_, fun k hk => ?_⟩, fun u h => ?_, fun u h => ?_,
    fun more i hi => ?_⟩
  · rw [aggregate_eq_cover]
    exact greedy_cover t (root.rows 0) 0
  · rw [aggregate_eq_cover] at h
    have hstart : Greedy t 0 (cover (root.rows 0) (t.drop 0)).1 served := h
    exact hstart.length_eq_taken
  · rw [Set.mem_ofPred_eq, ← root.length_rows 0]
    exact Trace.le_taken_iff.mp (Nat.le_refl _)
  · rw [Set.mem_ofPred_eq, ← root.length_rows 0] at hk
    exact Trace.le_taken_iff.mpr hk
  · exact Trace.taken_le_of_sublist (root.rows 0) h
  · have hnames : ∀ r ∈ root.rows 0, ∀ rec : Record, rec.name = r.name →
        decide (rec.name ∈ names) = true := by
      intro r hr rec hname
      rw [hname]
      exact decide_eq_true (List.mem_map_of_mem hr)
    rw [aggregate_eq_cover, aggregate_eq_cover, ← cover_filter u hnames, h, cover_filter t hnames]
  · have htake : (cover (root.rows 0) (t ++ more)).1.take (root.matched t) =
        (cover (root.rows 0) t).1.take (root.matched t) := take_cover_append more t
    rw [aggregate_eq_cover, aggregate_eq_cover, ← List.getElem?_take_of_lt hi, htake,
      List.getElem?_take_of_lt hi]

end RouteCoverage
