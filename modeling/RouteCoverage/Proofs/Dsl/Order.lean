import RouteCoverage.Dsl.Replay

/-!
# Replaying keeps the calls in order

The open blocks of a replay are the rightmost path of the tree that is built so far, and what
is finished lies to the left of that path.  So the pre-order listing of the partial tree can be
read off the blocks from the outside in (`Replay.labels`).  Finishing a block moves it without
changing the listing, and a call that is a step is listed last (`labels_call`); by induction on
the calls the tree of a chain lists its steps in the order in which they were called.

The second invariant, `Replay.Sound`, says which steps have children: every open block inside
the route is a block or a branch of the vocabulary, and so is every finished step that has
children.

The main statement is `route_of_chain`.
-/

namespace RouteCoverage

/-! ### Listings without depths -/

def Row.label (r : Row) : String × Nat := (r.name, r.line)

def Call.label (c : Call) : String × Nat := (c.name, c.line)

namespace Step

mutual

/-- The names and lines of a tree in pre-order. -/
def labels : Step → List (String × Nat)
  | node name line children => (name, line) :: labelsAll children

/-- The names and lines of a forest in pre-order. -/
def labelsAll : List Step → List (String × Nat)
  | [] => []
  | s :: rest => labels s ++ labelsAll rest

end

mutual

/-- Leaving out the depths of a listing leaves the names and lines. -/
theorem map_label_rows (level : Nat) : ∀ s : Step, (s.rows level).map Row.label = s.labels
  | node name line children => by
      rw [rows, labels, List.map_cons, map_label_rowsAll (level + 1) children]
      rfl

theorem map_label_rowsAll (level : Nat) :
    ∀ f : List Step, (rowsAll level f).map Row.label = labelsAll f
  | [] => rfl
  | s :: rest => by
      rw [rowsAll, labelsAll, List.map_append, map_label_rows level s,
        map_label_rowsAll level rest]

end

theorem labelsAll_append (f g : List Step) : labelsAll (f ++ g) = labelsAll f ++ labelsAll g := by
  induction f with
  | nil => rfl
  | cons s f ih => rw [List.cons_append, labelsAll, ih, labelsAll, List.append_assoc]

mutual

/-- A tree and all trees inside it, in pre-order. -/
def subtrees : Step → List Step
  | node name line children => node name line children :: subtreesAll children

/-- All trees inside a forest, in pre-order. -/
def subtreesAll : List Step → List Step
  | [] => []
  | s :: rest => subtrees s ++ subtreesAll rest

end

/-- The steps below the root of a tree, each with everything below it. -/
def descendants (s : Step) : List Step := subtreesAll s.children

theorem subtreesAll_append (f g : List Step) :
    subtreesAll (f ++ g) = subtreesAll f ++ subtreesAll g := by
  induction f with
  | nil => rfl
  | cons s f ih => rw [List.cons_append, subtreesAll, ih, subtreesAll, List.append_assoc]

end Step

/-! ### The listing of a partial tree -/

namespace OpenBlock

def labels (b : OpenBlock) : List (String × Nat) :=
  (b.name, b.line) :: Step.labelsAll b.finished.reverse

theorem labels_add (b : OpenBlock) (s : Step) : (b.add s).labels = b.labels ++ s.labels := by
  unfold labels add
  rw [List.reverse_cons, Step.labelsAll_append]
  simp [Step.labelsAll]

theorem labels_toStep (b : OpenBlock) : b.toStep.labels = b.labels := rfl

end OpenBlock

namespace Replay

/-- The pre-order listing of the tree built so far: the open blocks from the outside in. -/
def labels (r : Replay) : List (String × Nat) := r.blocks.reverse.flatMap OpenBlock.labels

theorem labels_mk (inner : OpenBlock) (around : List OpenBlock) :
    labels ⟨inner, around⟩ = around.reverse.flatMap OpenBlock.labels ++ inner.labels := by
  simp [labels, blocks]

/-- Finishing the innermost block moves it into the block around it. -/
theorem labels_finish (r : Replay) : r.finish.labels = r.labels := by
  obtain ⟨inner, around⟩ := r
  cases around with
  | nil => rfl
  | cons outer around =>
      simp only [finish, labels_mk, OpenBlock.labels_add, OpenBlock.labels_toStep,
        List.reverse_cons, List.flatMap_append, List.flatMap_cons, List.flatMap_nil,
        List.append_nil, List.append_assoc]

theorem labels_finishMany (n : Nat) (r : Replay) : (r.finishMany n).labels = r.labels := by
  induction n generalizing r with
  | zero => rfl
  | succ n ih => rw [finishMany, ih, labels_finish]

theorem labels_backTo (owner : String) (r : Replay) : (r.backTo owner).labels = r.labels := by
  unfold backTo
  split
  · exact labels_finishMany _ r
  · rfl

theorem labels_close (r : Replay) : r.close.labels = r.labels := by
  unfold close
  split
  · rw [labels_finish, labels_finish]
  · exact labels_finish r

theorem labels_addLeaf (c : Call) (r : Replay) :
    (r.addLeaf c).labels = r.labels ++ [c.label] := by
  obtain ⟨inner, around⟩ := r
  simp only [addLeaf, labels_mk, OpenBlock.labels_add, List.append_assoc]
  rfl

theorem labels_openBlock (c : Call) (r : Replay) :
    (r.openBlock c).labels = r.labels ++ [c.label] := by
  obtain ⟨inner, around⟩ := r
  simp only [openBlock, blocks, labels_mk, List.reverse_cons, List.flatMap_append,
    List.flatMap_cons, List.flatMap_nil, List.append_nil]
  rfl

/-- One call lists itself last when it is a step, and changes nothing else. -/
theorem labels_call (c : Call) (r : Replay) :
    (r.call c).labels = r.labels ++ if c.role.isStep then [c.label] else [] := by
  unfold call
  cases c.role with
  | leaf => exact labels_addLeaf c r
  | block => exact labels_openBlock c r
  | branch owner => simpa [Role.isStep, labels_backTo] using labels_openBlock c (r.backTo owner)
  | close => simpa [Role.isStep] using labels_close r
  | backTo owner => simpa [Role.isStep] using labels_backTo owner r
  | routeId => simp [Role.isStep]
  | other => simp [Role.isStep]

theorem labels_foldl_call (calls : List Call) (r : Replay) :
    (calls.foldl call r).labels =
      r.labels ++ (calls.filter (·.role.isStep)).map Call.label := by
  induction calls generalizing r with
  | nil => simp
  | cons c calls ih =>
      rw [List.foldl_cons, ih, labels_call, List.append_assoc]
      by_cases h : c.role.isStep <;> simp [h]

/-! ### Finishing everything -/

theorem around_finish (r : Replay) : r.finish.around = r.around.drop 1 := by
  obtain ⟨inner, around⟩ := r
  cases around <;> rfl

theorem around_finishMany (n : Nat) (r : Replay) :
    (r.finishMany n).around = r.around.drop n := by
  induction n generalizing r with
  | zero => rfl
  | succ n ih => rw [finishMany, ih, around_finish, List.drop_drop, Nat.add_comm]

theorem around_finishMany_length (r : Replay) :
    (r.finishMany r.around.length).around = [] := by
  rw [around_finishMany, List.drop_length]

theorem labels_of_around_nil {r : Replay} (h : r.around = []) : r.labels = r.inner.labels := by
  obtain ⟨inner, around⟩ := r
  cases h
  simp [labels_mk]

theorem labels_toStep (r : Replay) : r.toStep.labels = r.labels := by
  unfold toStep
  rw [OpenBlock.labels_toStep, ← labels_of_around_nil (around_finishMany_length r),
    labels_finishMany]

end Replay

/-! ### Steps with children -/

/-- A step that has children is a block or a branch of the vocabulary. -/
def Step.ParentSound (s : Step) : Prop :=
  s.children ≠ [] →
    Role.ofName s.name = .block ∨ ∃ owner, Role.ofName s.name = .branch owner

namespace Replay

/-- Every finished step that has children is a block or a branch, and so is every open block
but the route's own. -/
structure Sound (r : Replay) : Prop where
  finished : ∀ b ∈ r.blocks, ∀ s ∈ Step.subtreesAll b.finished.reverse, s.ParentSound
  opened : ∀ b ∈ r.blocks.dropLast,
    Role.ofName b.name = .block ∨ ∃ owner, Role.ofName b.name = .branch owner

theorem Sound.start (c : Call) : (Replay.start c).Sound where
  finished := by
    intro b hb s hs
    simp only [Replay.start, blocks, List.mem_singleton] at hb
    subst hb
    cases hs
  opened := by
    intro b hb
    cases hb

/-- A step may be added to the innermost block when it and everything below it are sound. -/
theorem Sound.add {inner : OpenBlock} {around : List OpenBlock} (h : Sound ⟨inner, around⟩)
    {s : Step} (hs : ∀ t ∈ s.subtrees, t.ParentSound) : Sound ⟨inner.add s, around⟩ where
  finished := by
    intro b hb t ht
    rcases List.mem_cons.mp hb with rfl | hb
    · simp only [OpenBlock.add, List.reverse_cons, Step.subtreesAll_append, Step.subtreesAll,
        List.append_nil, List.mem_append] at ht
      rcases ht with ht | ht
      · exact h.finished inner List.mem_cons_self t ht
      · exact hs t ht
    · exact h.finished b (List.mem_cons_of_mem inner hb) t ht
  opened := by
    intro b hb
    cases around with
    | nil => cases hb
    | cons outer around =>
        rcases List.mem_cons.mp hb with rfl | hb
        · exact h.opened inner List.mem_cons_self
        · exact h.opened b (List.mem_cons_of_mem inner hb)

theorem Sound.outer {inner outer : OpenBlock} {around : List OpenBlock}
    (h : Sound ⟨inner, outer :: around⟩) : Sound ⟨outer, around⟩ where
  finished := fun b hb => h.finished b (List.mem_cons_of_mem inner hb)
  opened := fun b hb => h.opened b (List.mem_cons_of_mem inner hb)

theorem Sound.finish {r : Replay} (h : r.Sound) : r.finish.Sound := by
  obtain ⟨inner, around⟩ := r
  cases around with
  | nil => exact h
  | cons outer around =>
      refine h.outer.add fun t ht => ?_
      rcases List.mem_cons.mp ht with rfl | ht
      · exact fun _ => h.opened inner List.mem_cons_self
      · exact h.finished inner List.mem_cons_self t ht

theorem Sound.finishMany {r : Replay} (h : r.Sound) (n : Nat) : (r.finishMany n).Sound := by
  induction n generalizing r with
  | zero => exact h
  | succ n ih => exact ih h.finish

theorem Sound.backTo {r : Replay} (h : r.Sound) (owner : String) : (r.backTo owner).Sound := by
  unfold Replay.backTo
  split
  · exact h.finishMany _
  · exact h

theorem Sound.close {r : Replay} (h : r.Sound) : r.close.Sound := by
  unfold Replay.close
  split
  · exact h.finish.finish
  · exact h.finish

theorem Sound.addLeaf {r : Replay} (h : r.Sound) (c : Call) : (r.addLeaf c).Sound := by
  refine h.add fun t ht => ?_
  rcases List.mem_cons.mp ht with rfl | ht
  · exact fun hne => absurd rfl hne
  · cases ht

theorem Sound.openBlock {r : Replay} (h : r.Sound) {c : Call}
    (hc : c.role = .block ∨ ∃ owner, c.role = .branch owner) : (r.openBlock c).Sound where
  finished := by
    intro b hb
    rcases List.mem_cons.mp hb with rfl | hb
    · intro s hs
      cases hs
    · exact h.finished b hb
  opened := by
    intro b hb
    rcases List.mem_cons.mp hb with rfl | hb
    · exact hc
    · exact h.opened b hb

theorem Sound.call {r : Replay} (h : r.Sound) (c : Call) : (r.call c).Sound := by
  unfold Replay.call
  cases hc : c.role with
  | leaf => exact h.addLeaf c
  | block => exact h.openBlock (.inl hc)
  | branch owner => exact (h.backTo owner).openBlock (.inr ⟨owner, hc⟩)
  | close => exact h.close
  | backTo owner => exact h.backTo owner
  | routeId => exact h
  | other => exact h

theorem Sound.foldl_call {r : Replay} (h : r.Sound) (calls : List Call) :
    (calls.foldl Replay.call r).Sound := by
  induction calls generalizing r with
  | nil => exact h
  | cons c calls ih => exact ih (h.call c)

theorem Sound.toStep {r : Replay} (h : r.Sound) :
    ∀ s ∈ r.toStep.descendants, s.ParentSound :=
  (h.finishMany r.around.length).finished _ List.mem_cons_self

end Replay

/-! ### The route of a chain -/

namespace Chain

/-- The tree of a chain lists the first call and then the calls that are steps, in order. -/
theorem labels_steps (c : Chain) :
    c.steps.labels = c.start.label :: (c.rest.filter (·.role.isStep)).map Call.label := by
  unfold steps
  rw [Replay.labels_toStep, Replay.labels_foldl_call]
  rfl

/-- Every step below the root of a chain's tree that has children is a block or a branch. -/
theorem parentSound_of_mem_descendants (c : Chain) :
    ∀ s ∈ c.steps.descendants, s.ParentSound :=
  ((Replay.Sound.start c.start).foldl_call c.rest).toStep

theorem routeId_eq_some_iff (c : Chain) (id : String) :
    c.routeId = some id ↔ ∃ before call after, c.rest = before ++ call :: after ∧
      (call.role = .routeId ∧ call.literal = some id) ∧
      ∀ x ∈ before, x.role = .routeId → x.literal = none := by
  unfold routeId
  rw [List.findSome?_eq_some_iff]
  simp

theorem routeId_eq_none_iff (c : Chain) :
    c.routeId = none ↔ ∀ x ∈ c.rest, x.role = .routeId → x.literal = none := by
  unfold routeId
  rw [List.findSome?_eq_none_iff]
  simp

/-- The route that a chain builds.  Its listing is the first call and then every leaf, block
and branch call in the order of the chain: nothing is lost, doubled or moved.  Below the root
only blocks and branches have children.  Steps carry no id; the id of the route is the literal
of the first `routeId` call that has one. -/
theorem route_of_chain (file : String) (c : Chain) :
    ((c.route file).root.rows 0).map Row.label =
        c.start.label :: (c.rest.filter (·.role.isStep)).map Call.label ∧
      (∀ s ∈ (c.route file).root.descendants, s.children ≠ [] →
        Role.ofName s.name = .block ∨ ∃ owner, Role.ofName s.name = .branch owner) ∧
      (∀ id, (c.route file).id = some id ↔
        ∃ before call after, c.rest = before ++ call :: after ∧
          (call.role = .routeId ∧ call.literal = some id) ∧
          ∀ x ∈ before, x.role = .routeId → x.literal = none) ∧
      ((c.route file).id = none ↔ ∀ x ∈ c.rest, x.role = .routeId → x.literal = none) := by
  refine ⟨?_, c.parentSound_of_mem_descendants, c.routeId_eq_some_iff, c.routeId_eq_none_iff⟩
  rw [Step.map_label_rows]
  exact c.labels_steps

end Chain

end RouteCoverage
