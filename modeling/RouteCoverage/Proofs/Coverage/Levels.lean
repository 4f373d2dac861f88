import Mathlib.Data.List.Chain
import RouteCoverage.Proofs.Coverage.Greedy
import RouteCoverage.Proofs.Dsl.Order

/-!
# A tree is rebuilt from its levels

The coverage of a route is a flat list, and yet its levels say how the steps are nested: a step
is followed by the steps below it, which are those of a greater level up to the first one that is
not (`run_rows`).  So the tree can be put together again from the end of the list: a row takes the
trees of greater level behind it as its children (`attach`).

Both rest on one invariant.  The listing of a tree or a forest may stand in front of any rows, as
long as the first row behind it does not stand deeper than its roots (`StopsAt`).  The main
statement is `levels_determine`.
-/

namespace RouteCoverage

namespace Step

/-! ### Where a run of deeper elements ends -/

/-- Nothing stands at the front of a list that is deeper than `level`. -/
def StopsAt {α : Type} (depth : α → Nat) (level : Nat) (l : List α) : Prop :=
  ∀ a ∈ l.head?, depth a ≤ level

section

variable {α : Type} {depth : α → Nat} {level : Nat} {run rest : List α}

theorem StopsAt.nil (depth : α → Nat) (level : Nat) : StopsAt depth level [] :=
  fun _ ha => nomatch ha

theorem StopsAt.mono {level' : Nat} (h : StopsAt depth level rest) (hle : level ≤ level') :
    StopsAt depth level' rest := fun a ha => Nat.le_trans (h a ha) hle

theorem StopsAt.takeWhile_eq (h : StopsAt depth level rest) :
    rest.takeWhile (level < depth ·) = [] := by
  cases rest with
  | nil => rfl
  | cons a rest => exact List.takeWhile_cons_of_neg (by simpa using h a rfl)

theorem StopsAt.dropWhile_eq (h : StopsAt depth level rest) :
    rest.dropWhile (level < depth ·) = rest := by
  cases rest with
  | nil => rfl
  | cons a rest => exact List.dropWhile_cons_of_neg (by simpa using h a rfl)

/-- Deeper elements in front of a stop are the run of deeper elements. -/
theorem StopsAt.takeWhile_append (h : StopsAt depth level rest)
    (hrun : ∀ a ∈ run, level < depth a) : (run ++ rest).takeWhile (level < depth ·) = run := by
  rw [List.takeWhile_append_of_pos fun a ha => decide_eq_true (hrun a ha), h.takeWhile_eq,
    List.append_nil]

theorem StopsAt.dropWhile_append (h : StopsAt depth level rest)
    (hrun : ∀ a ∈ run, level < depth a) : (run ++ rest).dropWhile (level < depth ·) = rest := by
  rw [List.dropWhile_append_of_pos fun a ha => decide_eq_true (hrun a ha), h.dropWhile_eq]

end

/-! ### The levels of a listing -/

mutual

theorem le_level_of_mem_rows (level : Nat) : ∀ s : Step, ∀ r ∈ s.rows level, level ≤ r.level
  | node name line children => by
      intro r hr
      rcases List.mem_cons.mp hr with rfl | hr
      · exact Nat.le_refl level
      · exact Nat.le_of_succ_le (le_level_of_mem_rowsAll (level + 1) children r hr)

theorem le_level_of_mem_rowsAll (level : Nat) :
    ∀ f : List Step, ∀ r ∈ rowsAll level f, level ≤ r.level
  | [] => fun _ hr => nomatch hr
  | s :: rest => by
      intro r hr
      rcases List.mem_append.mp hr with hr | hr
      · exact le_level_of_mem_rows level s r hr
      · exact le_level_of_mem_rowsAll level rest r hr

end

theorem stopsAt_rowsAll_append {level : Nat} (f : List Step) {rest : List Row}
    (h : StopsAt Row.level level rest) : StopsAt Row.level level (rowsAll level f ++ rest) := by
  cases f with
  | nil => exact h
  | cons s f =>
      obtain ⟨name, line, children⟩ := s
      intro r hr
      cases hr
      exact Nat.le_refl level

theorem stopsAt_rowsAll (level : Nat) (f : List Step) :
    StopsAt Row.level level (rowsAll level f) := by
  have h := stopsAt_rowsAll_append f (.nil Row.level level)
  rwa [List.append_nil] at h

mutual

/-- A step stands at most one level below the step before it. -/
theorem isChain_rows (level : Nat) :
    ∀ s : Step, (s.rows level).IsChain fun r r' => r'.level ≤ r.level + 1
  | node name line children => by
      rw [rows, List.isChain_cons]
      exact ⟨stopsAt_rowsAll (level + 1) children, isChain_rowsAll (level + 1) children⟩

theorem isChain_rowsAll (level : Nat) :
    ∀ f : List Step, (rowsAll level f).IsChain fun r r' => r'.level ≤ r.level + 1
  | [] => List.isChain_nil
  | s :: rest => by
      rw [rowsAll, List.isChain_append]
      refine ⟨isChain_rows level s, isChain_rowsAll level rest, fun r hr r' hr' => ?_⟩
      have hle := le_level_of_mem_rows level s r (List.mem_of_getLast? hr)
      have hle' := stopsAt_rowsAll level rest r' hr'
      omega

end

/-! ### The run of a step -/

mutual

theorem length_subtrees : ∀ s : Step, s.subtrees.length = s.size
  | node name line children => by
      rw [subtrees, size, List.length_cons, length_subtreesAll children, Nat.add_comm]

theorem length_subtreesAll : ∀ f : List Step, (subtreesAll f).length = sizeAll f
  | [] => rfl
  | s :: rest => by
      rw [subtreesAll, sizeAll, List.length_append, length_subtrees s, length_subtreesAll rest]

end

mutual

/-- Every row of a tree is followed by the listing of what is nested under its step, up to the
first row that does not stand deeper. -/
theorem run_rows {level : Nat} {rest : List Row} (h : StopsAt Row.level level rest) :
    ∀ (s : Step) (i : Nat) (r : Row), (s.rows level)[i]? = some r →
      ∃ s', s.subtrees[i]? = some s' ∧
        r :: ((s.rows level ++ rest).drop (i + 1)).takeWhile (r.level < ·.level) =
          s'.rows r.level
  | node name line children => by
      intro i r hr
      rw [rows, List.cons_append, List.drop_succ_cons]
      cases i with
      | zero =>
          cases hr
          refine ⟨node name line children, rfl, congrArg (_ :: ·) ?_⟩
          exact h.takeWhile_append (le_level_of_mem_rowsAll (level + 1) children)
      | succ i => exact run_rowsAll (h.mono (Nat.le_succ level)) children i r hr

theorem run_rowsAll {level : Nat} {rest : List Row} (h : StopsAt Row.level level rest) :
    ∀ (f : List Step) (i : Nat) (r : Row), (rowsAll level f)[i]? = some r →
      ∃ s', (subtreesAll f)[i]? = some s' ∧
        r :: ((rowsAll level f ++ rest).drop (i + 1)).takeWhile (r.level < ·.level) =
          s'.rows r.level
  | [] => fun _ _ hr => nomatch hr
  | s :: others => by
      intro i r hr
      rw [rowsAll] at hr
      rw [rowsAll, subtreesAll, List.append_assoc]
      rcases Nat.lt_or_ge i (s.rows level).length with hi | hi
      · rw [List.getElem?_append_left hi] at hr
        obtain ⟨s', hs', hrun⟩ := run_rows (stopsAt_rowsAll_append others h) s i r hr
        refine ⟨s', ?_, hrun⟩
        rw [List.getElem?_append_left (List.getElem?_eq_some_iff.mp hs').1, hs']
      · rw [List.getElem?_append_right hi] at hr
        obtain ⟨s', hs', hrun⟩ := run_rowsAll h others (i - (s.rows level).length) r hr
        refine ⟨s', ?_, ?_⟩
        · rw [List.getElem?_append_right (by rwa [length_subtrees, ← length_rows level]),
            length_subtrees, ← length_rows level, hs']
        · rw [List.drop_append, List.drop_eq_nil_of_le (Nat.le_succ_of_le hi), List.nil_append,
            Nat.succ_sub hi, hrun]

end

/-! ### Rebuilding a tree -/

/-- Puts a row in front of trees, each given with its level: those at the front that stand deeper
than the row become its children. -/
def attach (r : Row) (trees : List (Nat × Step)) : List (Nat × Step) :=
  (r.level, node r.name r.line ((trees.takeWhile (r.level < ·.1)).map Prod.snd)) ::
    trees.dropWhile (r.level < ·.1)

/-- The trees that rows are the listing of, each with its level. -/
def ofRows (rows : List Row) : List (Nat × Step) := rows.foldr attach []

theorem stopsAt_ofRows {level : Nat} {rows : List Row} (h : StopsAt Row.level level rows) :
    StopsAt Prod.fst level (ofRows rows) := by
  cases rows with
  | nil => exact .nil _ _
  | cons r rows =>
      intro tree htree
      cases htree
      exact h r rfl

mutual

/-- A tree is rebuilt from its listing, whatever follows it. -/
theorem ofRows_rows_append {level : Nat} {rest : List Row} (h : StopsAt Row.level level rest) :
    ∀ s : Step, ofRows (s.rows level ++ rest) = (level, s) :: ofRows rest
  | node name line children => by
      have hchildren := ofRows_rowsAll_append (h.mono (Nat.le_succ level)) children
      have hdeeper : ∀ tree ∈ children.map ((level + 1, ·)), level < tree.1 := by
        intro tree htree
        obtain ⟨s, -, rfl⟩ := List.mem_map.mp htree
        exact Nat.lt_succ_self level
      have hstop := stopsAt_ofRows h
      rw [rows, List.cons_append, ofRows, List.foldr_cons, ← ofRows, hchildren, attach,
        hstop.takeWhile_append hdeeper, hstop.dropWhile_append hdeeper, List.map_map]
      simp [Function.comp_def]

theorem ofRows_rowsAll_append {level : Nat} {rest : List Row} (h : StopsAt Row.level level rest) :
    ∀ f : List Step, ofRows (rowsAll level f ++ rest) = f.map ((level, ·)) ++ ofRows rest
  | [] => rfl
  | s :: others => by
      rw [rowsAll, List.append_assoc, ofRows_rows_append (stopsAt_rowsAll_append others h) s,
        ofRows_rowsAll_append h others, List.map_cons, List.cons_append]

end

/-- Every row below the first one stands deeper than the root. -/
theorem level_eq_zero_iff {s : Step} {i : Nat} {r : Row} (h : (s.rows 0)[i]? = some r) :
    r.level = 0 ↔ i = 0 := by
  obtain ⟨name, line, children⟩ := s
  cases i with
  | zero =>
      cases h
      exact iff_of_true rfl rfl
  | succ i =>
      have hle := le_level_of_mem_rowsAll 1 children r (List.mem_of_getElem? h)
      omega

theorem ofRows_rows (s : Step) : ofRows (s.rows 0) = [(0, s)] := by
  have h := ofRows_rows_append (.nil Row.level 0) s
  rwa [List.append_nil] at h

end Step

theorem getElem?_rows_of_aggregate {root : Step} {t : Trace} {i : Nat} {e : Entry}
    (h : (aggregate root t)[i]? = some e) : (root.rows 0)[i]? = some e.row := by
  rw [← map_row_aggregate root t, List.getElem?_map, h]
  rfl

/-- The names, lines and levels of the coverage of a route determine its tree.  The level is zero
at the first entry only, and every later one is between one and one more than the level before.
Every entry and the entries of greater level right behind it are the listing of one tree inside the
route, which stands at the same place in pre-order.  The whole tree is rebuilt from the list, and
so two trees with the same list are the same. -/
theorem levels_determine (root : Step) (t : Trace) :
    (∀ (i : Nat) (e : Entry), (aggregate root t)[i]? = some e → (e.level = 0 ↔ i = 0)) ∧
    (∀ (i : Nat) (e e' : Entry), (aggregate root t)[i]? = some e →
      (aggregate root t)[i + 1]? = some e' → 1 ≤ e'.level ∧ e'.level ≤ e.level + 1) ∧
    (∀ (i : Nat) (e : Entry), (aggregate root t)[i]? = some e →
      ∃ s, root.subtrees[i]? = some s ∧
        (e :: ((aggregate root t).drop (i + 1)).takeWhile (e.level < ·.level)).map Entry.row =
          s.rows e.level) ∧
    Step.ofRows ((aggregate root t).map Entry.row) = [(0, root)] ∧
    ∀ (root' : Step) (t' : Trace),
      (aggregate root t).map Entry.row = (aggregate root' t').map Entry.row → root = root' := by
  have hrows := map_row_aggregate root t
  have hrebuilt : Step.ofRows ((aggregate root t).map Entry.row) = [(0, root)] := by
    rw [hrows, Step.ofRows_rows]
  refine ⟨fun i e he => Step.level_eq_zero_iff (getElem?_rows_of_aggregate he),
    fun i e e' he he' => ⟨?_, ?_⟩, fun i e he => ?_, hrebuilt, fun root' t' h => ?_⟩
  · have hpos := Step.level_eq_zero_iff (getElem?_rows_of_aggregate he')
    have hlevel : e'.row.level = e'.level := rfl
    omega
  · have hchain := List.isChain_iff_getElem.mp (Step.isChain_rows 0 root) i
    obtain ⟨hi, hrow⟩ := List.getElem?_eq_some_iff.mp (getElem?_rows_of_aggregate he)
    obtain ⟨hi', hrow'⟩ := List.getElem?_eq_some_iff.mp (getElem?_rows_of_aggregate he')
    have hle := hchain hi'
    rw [hrow, hrow'] at hle
    exact hle
  · obtain ⟨s, hs, hrun⟩ := Step.run_rows (.nil Row.level 0) root i
      e.row (getElem?_rows_of_aggregate he)
    refine ⟨s, hs, ?_⟩
    rw [List.append_nil, ← hrows, ← List.map_drop, List.takeWhile_map] at hrun
    exact hrun
  · rw [h, map_row_aggregate, Step.ofRows_rows] at hrebuilt
    cases hrebuilt
    rfl

end RouteCoverage
