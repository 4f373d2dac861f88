import Mathlib.Data.List.Basic
import RouteCoverage.Coverage

/-!
# Coverage is the leftmost greedy embedding

The walk through a tree threads the records that are left through nested subtrees.  `cover`
does the same over a flat list of rows, and `visit_eq_cover` shows that walking a tree is
covering its pre-order listing, so the shape of the tree plays no part in the matching.

`Greedy` says which records a trace gives to a list of steps: the steps up to some point get
records at increasing positions, each the first of its name after the one before; the next step
has no record left; and it and all later steps are not hit.  The main statement is that the coverage
of a route is the one list of entries that is matched in this way (`aggregate_eq_iff_greedy`).
-/

namespace RouteCoverage

/-! ### Walks over flat lists -/

/-- The entry of a row that was hit `hits` times. -/
def Row.entry (r : Row) (hits : Hits) : Entry := ⟨r.name, r.line, r.level, hits⟩

@[simp] theorem Row.row_entry (r : Row) (hits : Hits) : (r.entry hits).row = r := rfl

/-- Serves rows from the front of a trace: an entry for each row, and the records that are
left. -/
def cover : List Row → Trace → List Entry × Trace
  | [], trace => ([], trace)
  | r :: rows, trace =>
      let (hits, rest) := trace.serve r.name
      let (more, rest) := cover rows rest
      (r.entry hits :: more, rest)

theorem cover_cons (r : Row) (rows : List Row) (trace : Trace) :
    cover (r :: rows) trace =
      (r.entry (trace.serve r.name).1 :: (cover rows (trace.serve r.name).2).1,
        (cover rows (trace.serve r.name).2).2) := rfl

/-- Rows that follow others are served from what those leave. -/
theorem cover_append (first more : List Row) (trace : Trace) :
    cover (first ++ more) trace =
      ((cover first trace).1 ++ (cover more (cover first trace).2).1,
        (cover more (cover first trace).2).2) := by
  induction first generalizing trace with
  | nil => rfl
  | cons r first ih => rw [List.cons_append, cover_cons, cover_cons, ih]; rfl

theorem map_row_cover (rows : List Row) (trace : Trace) :
    (cover rows trace).1.map Entry.row = rows := by
  induction rows generalizing trace with
  | nil => rfl
  | cons r rows ih => rw [cover_cons, List.map_cons, ih, Row.row_entry]

namespace Step

mutual

theorem visit_eq_cover (level : Nat) (trace : Trace) :
    ∀ s : Step, s.visit level trace = cover (s.rows level) trace
  | node name line children => by
      simp only [visit, rows, cover_cons, visitAll_eq_cover (level + 1) _ children]
      rfl

theorem visitAll_eq_cover (level : Nat) (trace : Trace) :
    ∀ f : List Step, visitAll level f trace = cover (rowsAll level f) trace
  | [] => rfl
  | s :: others => by
      simp only [visitAll, rowsAll, cover_append, visit_eq_cover level trace s,
        visitAll_eq_cover level _ others]

end

end Step

theorem aggregate_eq_cover (root : Step) (trace : Trace) :
    aggregate root trace = (cover (root.rows 0) trace).1 := by
  rw [aggregate, root.visit_eq_cover]

theorem map_row_aggregate (root : Step) (trace : Trace) :
    (aggregate root trace).map Entry.row = root.rows 0 := by
  rw [aggregate_eq_cover, map_row_cover]

theorem length_aggregate (root : Step) (trace : Trace) :
    (aggregate root trace).length = root.size := by
  rw [← root.length_rows 0, ← map_row_aggregate root trace, List.length_map]

/-! ### The record that serves a step -/

namespace Trace

/-- From position `start` on, position `p` holds the first record named `name`. -/
structure FirstFrom (t : Trace) (start : Nat) (name : String) (p : Nat) : Prop where
  start_le : start ≤ p
  named : ∃ r : Record, t[p]? = some r ∧ r.name = name
  least : ∀ (q : Nat) (r : Record), start ≤ q → q < p → t[q]? = some r → r.name ≠ name

/-- No record from position `start` on is named `name`. -/
def NoneFrom (t : Trace) (start : Nat) (name : String) : Prop :=
  ∀ (q : Nat) (r : Record), start ≤ q → t[q]? = some r → r.name ≠ name

/-- The first record of a name stands at one position. -/
theorem FirstFrom.unique {t : Trace} {start p p' : Nat} {name : String}
    (h : t.FirstFrom start name p) (h' : t.FirstFrom start name p') : p = p' := by
  obtain ⟨r, hr, hname⟩ := h.named
  obtain ⟨r', hr', hname'⟩ := h'.named
  rcases Nat.lt_trichotomy p p' with hlt | heq | hgt
  · exact absurd hname (h'.least p r h.start_le hlt hr)
  · exact heq
  · exact absurd hname' (h.least p' r' h'.start_le hgt hr')

/-- A name is served by its first record, or it has none and nothing is left. -/
theorem serve_drop (t : Trace) (start : Nat) (name : String) :
    (∃ p r, t.FirstFrom start name p ∧ t[p]? = some r ∧
      serve name (t.drop start) = (r.hits, t.drop (p + 1))) ∨
    (t.NoneFrom start name ∧ serve name (t.drop start) = (.zero, [])) := by
  induction h : t.length - start generalizing start with
  | zero =>
      right
      have hle : t.length ≤ start := by omega
      refine ⟨fun q r hq hr => ?_, by rw [List.drop_eq_nil_of_le hle]; rfl⟩
      rw [List.getElem?_eq_none (by omega)] at hr
      cases hr
  | succ n ih =>
      have hlt : start < t.length := by omega
      have hdrop := List.drop_eq_getElem_cons hlt
      have hget := List.getElem?_eq_getElem hlt
      by_cases hname : t[start].name = name
      · left
        refine ⟨start, t[start], ⟨Nat.le_refl _, ⟨_, hget, hname⟩, fun q r hq hq' => by omega⟩,
          hget, ?_⟩
        rw [hdrop]
        simp [serve, take?, hname]
      · have hskip : serve name (t.drop start) = serve name (t.drop (start + 1)) := by
          rw [hdrop]
          simp [serve, take?, hname]
        have hfirst : ∀ q r, start ≤ q → t[q]? = some r → r.name = name → start + 1 ≤ q := by
          intro q r hq hr hr'
          rcases Nat.eq_or_lt_of_le hq with rfl | hq
          · rw [hget] at hr
            cases hr
            exact absurd hr' hname
          · exact hq
        rcases ih (start + 1) (by omega) with ⟨p, r, hp, hr, hs⟩ | ⟨hn, hs⟩
        · left
          refine ⟨p, r, ⟨by have := hp.start_le; omega, hp.named, fun q r' hq hq' hr' hn => ?_⟩, hr,
            by rw [hskip, hs]⟩
          exact hp.least q r' (hfirst q r' hq hr' hn) hq' hr' hn
        · right
          exact ⟨fun q r hq hr hn' => hn q r (hfirst q r hq hr hn') hr hn', by rw [hskip, hs]⟩

end Trace

/-! ### Greedy matching -/

/-- How a trace serves steps from position `start` on.  The first steps get the records at the
positions `served`; when a step is left after them, it has no record, and neither it nor any
step after it is hit. -/
structure Greedy (t : Trace) (start : Nat) (entries : List Entry) (served : List Nat) :
    Prop where
  /-- no more records are taken than there are steps -/
  length_le : served.length ≤ entries.length
  /-- no position is revisited, and no record is used twice -/
  increasing : served.Pairwise (· < ·)
  start_le : ∀ p ∈ served, start ≤ p
  /-- each served step has the name and the hits of its record -/
  found : ∀ i p : Nat, served[i]? = some p →
    ∃ (e : Entry) (r : Record), entries[i]? = some e ∧ t[p]? = some r ∧
      r.name = e.name ∧ r.hits = e.hits
  /-- between the records before it and its own, no record has the name of a served step -/
  least : ∀ (i p : Nat) (e : Entry), served[i]? = some p → entries[i]? = some e →
    ∀ (q : Nat) (r : Record), start ≤ q → (∀ p' ∈ served.take i, p' < q) → q < p → t[q]? = some r →
      r.name ≠ e.name
  /-- after the records taken, none has the name of the first step that is not served -/
  exhausted : ∀ e : Entry, entries[served.length]? = some e →
    ∀ (q : Nat) (r : Record), start ≤ q → (∀ p ∈ served, p < q) → t[q]? = some r → r.name ≠ e.name
  /-- the steps that are not served are not hit -/
  unserved : ∀ (i : Nat) (e : Entry), served.length ≤ i → entries[i]? = some e → e.hits = .zero

namespace Greedy

variable {t : Trace} {start : Nat}

/-- No step takes no record. -/
theorem nil (t : Trace) (start : Nat) : Greedy t start [] [] := by
  constructor <;> simp

theorem miss {e : Entry} {entries : List Entry} (hnone : t.NoneFrom start e.name)
    (hzero : ∀ e' ∈ e :: entries, e'.hits = .zero) : Greedy t start (e :: entries) [] where
  length_le := Nat.zero_le _
  increasing := List.Pairwise.nil
  start_le := by simp
  found := by simp
  least := by simp
  exhausted := by
    intro e' he q r hq _ hr
    cases he
    exact hnone q r hq hr
  unserved := fun i e' _ he => hzero e' (List.mem_of_getElem? he)

/-- A step that gets the first record of its name is followed by steps that are served after
that record. -/
theorem cons {e : Entry} {entries : List Entry} {p : Nat} {served : List Nat} {r : Record}
    (hfirst : t.FirstFrom start e.name p) (hr : t[p]? = some r) (hhits : r.hits = e.hits)
    (h : Greedy t (p + 1) entries served) :
    Greedy t start (e :: entries) (p :: served) where
  length_le := Nat.succ_le_succ h.length_le
  increasing := List.pairwise_cons.mpr ⟨h.start_le, h.increasing⟩
  start_le := by
    intro q hq
    rcases List.mem_cons.mp hq with rfl | hq
    · exact hfirst.start_le
    · have := h.start_le q hq
      have := hfirst.start_le
      omega
  found := by
    intro i q hq
    cases i with
    | zero =>
        cases hq
        obtain ⟨r', hr', hname⟩ := hfirst.named
        rw [hr] at hr'
        cases hr'
        exact ⟨e, r, rfl, hr, hname, hhits⟩
    | succ i => exact h.found i q hq
  least := by
    intro i p' e' hp' he' q r' hq hbefore hlt hr'
    cases i with
    | zero =>
        cases hp'
        cases he'
        exact hfirst.least q r' hq hlt hr'
    | succ i =>
        rw [List.take_succ_cons] at hbefore
        exact h.least i p' e' hp' he' q r' (hbefore p List.mem_cons_self)
          (fun p'' hp'' => hbefore p'' (List.mem_cons_of_mem p hp'')) hlt hr'
  exhausted := by
    intro e' he' q r' hq hbefore hr'
    exact h.exhausted e' he' q r' (hbefore p List.mem_cons_self)
      (fun p' hp' => hbefore p' (List.mem_cons_of_mem p hp')) hr'
  unserved := by
    intro i e' hi he'
    cases i with
    | zero => simp at hi
    | succ i => exact h.unserved i e' (Nat.le_of_succ_le_succ hi) he'

theorem of_nil {e : Entry} {entries : List Entry} (h : Greedy t start (e :: entries) []) :
    t.NoneFrom start e.name ∧ ∀ e' ∈ e :: entries, e'.hits = .zero := by
  constructor
  · intro q r hq hr
    exact h.exhausted e rfl q r hq (by simp) hr
  · intro e' he'
    obtain ⟨i, hi⟩ := List.mem_iff_getElem?.mp he'
    exact h.unserved i e' (Nat.zero_le i) hi

/-- A matching that takes a record takes the first one for its first step, and goes on after
it. -/
theorem of_cons {e : Entry} {entries : List Entry} {p : Nat} {served : List Nat}
    (h : Greedy t start (e :: entries) (p :: served)) :
    t.FirstFrom start e.name p ∧ (∃ r, t[p]? = some r ∧ r.hits = e.hits) ∧
      Greedy t (p + 1) entries served := by
  obtain ⟨hlt, hinc⟩ := List.pairwise_cons.mp h.increasing
  obtain ⟨e₀, r, he₀, hr, hname, hhits⟩ := h.found 0 p rfl
  cases he₀
  have hstart := h.start_le p List.mem_cons_self
  have hbefore : ∀ {q : Nat} {l : List Nat}, p + 1 ≤ q → (∀ p' ∈ l, p' < q) →
      ∀ p' ∈ p :: l, p' < q := by
    intro q l hq hl p' hp'
    rcases List.mem_cons.mp hp' with rfl | hp'
    · exact hq
    · exact hl p' hp'
  refine ⟨⟨hstart, ⟨r, hr, hname⟩, ?_⟩, ⟨r, hr, hhits⟩, ?_⟩
  · intro q r' hq hq' hr'
    exact h.least 0 p e rfl rfl q r' hq (by simp) hq' hr'
  · refine ⟨Nat.le_of_succ_le_succ h.length_le, hinc, hlt, fun i q hq => h.found (i + 1) q hq,
      ?_, ?_, fun i e' hi he' => h.unserved (i + 1) e' (Nat.succ_le_succ hi) he'⟩
    · intro i p' e' hp' he' q r' hq hl hq' hr'
      exact h.least (i + 1) p' e' hp' he' q r' (by omega) (hbefore hq hl) hq' hr'
    · intro e' he' q r' hq hl hr'
      exact h.exhausted e' he' q r' (by omega) (hbefore hq hl) hr'

end Greedy

theorem hits_cover_nil (rows : List Row) : ∀ e ∈ (cover rows []).1, e.hits = .zero := by
  induction rows with
  | nil => simp [cover]
  | cons r rows ih =>
      rw [cover_cons]
      intro e he
      rcases List.mem_cons.mp he with rfl | he
      · rfl
      · exact ih e he

theorem greedy_cover (t : Trace) (rows : List Row) :
    ∀ start, ∃ served, Greedy t start (cover rows (t.drop start)).1 served := by
  induction rows with
  | nil => exact fun start => ⟨[], Greedy.nil t start⟩
  | cons r rows ih =>
      intro start
      rw [cover_cons]
      rcases t.serve_drop start r.name with ⟨p, rec, hfirst, hrec, hserve⟩ | ⟨hnone, hserve⟩
      · rw [hserve]
        obtain ⟨served, h⟩ := ih (p + 1)
        exact ⟨p :: served, Greedy.cons hfirst hrec rfl h⟩
      · rw [hserve]
        refine ⟨[], Greedy.miss hnone fun e he => ?_⟩
        rcases List.mem_cons.mp he with rfl | he
        · rfl
        · exact hits_cover_nil rows e he

theorem cover_of_not_hit (entries : List Entry) (h : ∀ e ∈ entries, e.hits = .zero) :
    (cover (entries.map Entry.row) []).1 = entries := by
  induction entries with
  | nil => rfl
  | cons e entries ih =>
      rw [List.map_cons, cover_cons]
      have hrest := ih fun e' he' => h e' (List.mem_cons_of_mem e he')
      have hzero : e.row.entry .zero = e := by
        rw [← h e List.mem_cons_self]
        rfl
      exact congrArg₂ List.cons hzero hrest

theorem Greedy.cover_eq {t : Trace} {entries : List Entry} : ∀ {start : Nat} {served : List Nat},
    Greedy t start entries served →
      (cover (entries.map Entry.row) (t.drop start)).1 = entries := by
  induction entries with
  | nil => intros; rfl
  | cons e entries ih =>
      intro start served h
      rw [List.map_cons, cover_cons]
      cases served with
      | nil =>
          obtain ⟨hnone, hzero⟩ := h.of_nil
          rcases t.serve_drop start e.name with ⟨p, r, hfirst, -, -⟩ | ⟨-, hserve⟩
          · obtain ⟨r', hr', hname⟩ := hfirst.named
            exact absurd hname (hnone p r' hfirst.start_le hr')
          · have hrow : e.row.name = e.name := rfl
            have hall := cover_of_not_hit (e :: entries) hzero
            rw [List.map_cons, cover_cons] at hall
            rw [hrow, hserve]
            exact hall
      | cons p served =>
          obtain ⟨hfirst, ⟨r, hr, hhits⟩, hrest⟩ := h.of_cons
          have hrow : e.row.name = e.name := rfl
          have hentry : e.row.entry r.hits = e := by rw [hhits]; rfl
          rcases t.serve_drop start e.name with ⟨p', r', hfirst', hr', hserve⟩ | ⟨hnone, -⟩
          · obtain rfl : p = p' := hfirst.unique hfirst'
            rw [hr] at hr'
            cases hr'
            rw [hrow, hserve]
            exact congrArg₂ List.cons hentry (ih hrest)
          · obtain ⟨r', hr', hname⟩ := hfirst.named
            exact absurd hname (hnone p r' hfirst.start_le hr')

/-- The coverage of a route has one entry for each step, and it is the one list of entries that
decorates the pre-order listing of the steps with their depths and is matched greedily. -/
theorem aggregate_eq_iff_greedy (root : Step) (t : Trace) :
    (aggregate root t).length = root.size ∧
      ∀ entries, aggregate root t = entries ↔
        entries.map Entry.row = root.rows 0 ∧ ∃ served, Greedy t 0 entries served := by
  refine ⟨length_aggregate root t, fun entries => ⟨?_, ?_⟩⟩
  · rintro rfl
    refine ⟨map_row_aggregate root t, ?_⟩
    rw [aggregate_eq_cover]
    exact greedy_cover t (root.rows 0) 0
  · rintro ⟨hrows, served, h⟩
    rw [aggregate_eq_cover, ← hrows]
    exact h.cover_eq

end RouteCoverage
