import RouteCoverage.Dsl.Replay

/-!
# Replaying undoes the spelling of a tree

A tree of steps is written down as calls: a leaf is its own call; a block is its call, the calls
of its children and one closing call; a branch is its call and the calls of its children, and
may go back to its owner at the end (`Step.Spells`).  In a well-nested tree (`Step.WellNested`)
leaves have no children, branches stand directly in their owners, and they stand there after
the other children.

Replaying a spelled step adds it to the innermost open block.  A branch need not be finished
yet when its last call is replayed: `Replay.Trails` says that a replay is another one up to one
open branch of the innermost block, which the next branch or the closing call finishes.  From
this one invariant follows that the calls of a well-nested tree are replayed to that tree
(`steps_of_spells`), also with unknown calls in between, closing calls too many at the
outermost level, and calls that are no steps left out at the end.
-/

namespace RouteCoverage

/-! ### Branches of the vocabulary -/

namespace Role

theorem branches_sound :
    ∀ p ∈ branches, ofName p.1 = .branch p.2 ∧ ofName p.2 = .block := by
  decide

theorem mem_branches_of_lookup {name owner : String} (h : branches.lookup name = some owner) :
    (name, owner) ∈ branches := by
  obtain ⟨l₁, l₂, hl, -⟩ := List.lookup_eq_some_iff.mp h
  rw [hl]
  exact List.mem_append_right l₁ List.mem_cons_self

theorem lookup_of_ofName_eq_branch {name owner : String} (h : ofName name = .branch owner) :
    branches.lookup name = some owner := by
  unfold ofName at h
  split at h
  · cases h
  split at h
  · cases h
  split at h
  · cases h
  split at h
  · cases h
    assumption
  split at h
  · cases h
  split at h <;> cases h

theorem ofName_owner {name owner : String} (h : ofName name = .branch owner) :
    ofName owner = .block :=
  (branches_sound _ (mem_branches_of_lookup (lookup_of_ofName_eq_branch h))).2

end Role

theorem isBranch_of_ofName {name owner : String} (h : Role.ofName name = .branch owner) :
    isBranch name = true := by
  unfold isBranch
  rw [Role.lookup_of_ofName_eq_branch h]
  rfl

theorem exists_owner_of_isBranch {name : String} (h : isBranch name = true) :
    ∃ owner, Role.ofName name = .branch owner := by
  obtain ⟨owner, ho⟩ := Option.isSome_iff_exists.mp h
  exact ⟨owner, (Role.branches_sound _ (Role.mem_branches_of_lookup ho)).1⟩

theorem isBranch_eq_false {name : String} (h : ∀ owner, Role.ofName name ≠ .branch owner) :
    isBranch name = false := by
  cases hb : isBranch name with
  | false => rfl
  | true =>
      obtain ⟨owner, ho⟩ := exists_owner_of_isBranch hb
      exact absurd ho (h owner)

/-! ### Well-nested trees -/

namespace Step

/-- Among the children of one step, no branch stands before a step that is not one. -/
def BranchesLast (children : List Step) : Prop :=
  children.Pairwise fun s t => isBranch s.name = true → isBranch t.name = true

instance (children : List Step) : Decidable (BranchesLast children) :=
  inferInstanceAs (Decidable (List.Pairwise _ _))

/-- What the role of a step asks of its parent's name and of its children: a leaf has none, and
a branch stands directly in its owner. -/
def Fits (parent : String) (children : List Step) : Role → Prop
  | .leaf => children = []
  | .block => True
  | .branch owner => owner = parent
  | _ => False

instance (parent : String) (children : List Step) : DecidablePred (Fits parent children)
  | .leaf => decidable_of_iff (children.isEmpty = true) List.isEmpty_iff
  | .block => .isTrue trivial
  | .branch owner => inferInstanceAs (Decidable (owner = parent))
  | .routeId | .close | .backTo _ | .other => .isFalse id

mutual

/-- Whether a step may stand directly under a step named `parent`, with everything below it in
its place as well. -/
def NestedIn (parent : String) : Step → Prop
  | node name _ children =>
      Fits parent children (Role.ofName name) ∧ BranchesLast children ∧ NestedAllIn name children

/-- Whether all steps of a forest may stand under a step named `parent`. -/
def NestedAllIn (parent : String) : List Step → Prop
  | [] => True
  | s :: rest => NestedIn parent s ∧ NestedAllIn parent rest

end

mutual

/-- Standing in place can be decided. -/
instance decideNestedIn (parent : String) : DecidablePred (NestedIn parent)
  | node name _ children =>
      have := decideNestedAllIn name children
      inferInstanceAs (Decidable (_ ∧ _ ∧ _))

instance decideNestedAllIn (parent : String) : DecidablePred (NestedAllIn parent)
  | [] => .isTrue trivial
  | s :: rest =>
      have := decideNestedIn parent s
      have := decideNestedAllIn parent rest
      inferInstanceAs (Decidable (_ ∧ _))

end

/-- A route tree whose leaves, blocks and branches are all in their places. -/
structure WellNested (root : Step) : Prop where
  name_eq : root.name = "from"
  branchesLast : BranchesLast root.children
  nested : NestedAllIn root.name root.children

/-- A step directly under something that is no block is no branch. -/
theorem NestedIn.isBranch_eq_false {parent : String} {s : Step} (h : s.NestedIn parent)
    (hparent : Role.ofName parent ≠ .block) : isBranch s.name = false := by
  obtain ⟨name, line, children⟩ := s
  refine RouteCoverage.isBranch_eq_false fun owner ho => ?_
  change Role.ofName name = .branch owner at ho
  rw [NestedIn, ho] at h
  obtain ⟨howner, -⟩ := h
  cases howner
  exact hparent (Role.ofName_owner ho)

theorem NestedAllIn.isBranch_eq_false {parent : String} {f : List Step}
    (h : NestedAllIn parent f) (hparent : Role.ofName parent ≠ .block) :
    ∀ s ∈ f, isBranch s.name = false := by
  induction f with
  | nil => simp
  | cons t f ih =>
      rw [NestedAllIn] at h
      intro s hs
      rcases List.mem_cons.mp hs with rfl | hs
      · exact h.1.isBranch_eq_false hparent
      · exact ih h.2 s hs

/-! ### Spelled trees -/

/-- How the calls of a step end: a block by one closing call, a branch by any number of calls
that go back to its owner, any other step by nothing. -/
def Ending : Role → List Call → Prop
  | .block, ending => ∃ c : Call, c.role = .close ∧ ending = [c]
  | .branch owner, ending => ∀ c ∈ ending, c.role = .backTo owner
  | _, ending => ending = []

mutual

/-- The calls spell the step: its own call, the calls of its children, and an ending. -/
def Spells : Step → List Call → Prop
  | node name line children, calls =>
      ∃ own body ending, calls = own :: body ++ ending ∧
        own.name = name ∧ own.line = line ∧
        SpellsAll children body ∧ Ending (Role.ofName name) ending

/-- The calls spell the steps of a forest one after the other. -/
def SpellsAll : List Step → List Call → Prop
  | [], calls => calls = []
  | s :: rest, calls =>
      ∃ first others, calls = first ++ others ∧ Spells s first ∧ SpellsAll rest others

end

/-- A block ends with one closing call. -/
theorem ending_block {name : String} (h : Role.ofName name = .block) {c : Call}
    (hc : c.role = .close) : Ending (Role.ofName name) [c] := by
  rw [h]
  exact ⟨c, hc, rfl⟩

/-- A branch ends with any calls that go back to its owner. -/
theorem ending_branch {name : String} (owner : String) (h : Role.ofName name = .branch owner)
    {ending : List Call} (hending : ∀ c ∈ ending, c.role = .backTo owner) :
    Ending (Role.ofName name) ending := by
  rw [h]
  exact hending

theorem spells_leaf (own : Call) (h : own.role = .leaf) :
    Spells (.node own.name own.line []) [own] := by
  have hrole : Role.ofName own.name = .leaf := h
  refine ⟨own, [], [], rfl, rfl, rfl, rfl, ?_⟩
  rw [hrole]
  rfl

/-- The calls spell the steps of a forest one after the other, with closing calls added before,
between and after them. -/
def SpellsApart : List Step → List Call → Prop
  | [], calls => ∀ c ∈ calls, c.role = .close
  | s :: rest, calls =>
      ∃ closers first others, calls = closers ++ first ++ others ∧
        (∀ c ∈ closers, c.role = .close) ∧ Spells s first ∧ SpellsApart rest others

theorem SpellsAll.apart {f : List Step} {calls : List Call} (h : SpellsAll f calls) :
    SpellsApart f calls := by
  induction f generalizing calls with
  | nil =>
      cases h
      simp [SpellsApart]
  | cons s f ih =>
      obtain ⟨first, others, rfl, hfirst, hothers⟩ := h
      exact ⟨[], first, others, rfl, by simp, hfirst, ih hothers⟩

mutual

/-- The calls that spell a tree, with `end` for every closing call. -/
def script : Step → List Call
  | node name line children =>
      ⟨name, line, none⟩ :: scriptAll children ++
        if Role.ofName name = .block then [⟨"end", line, none⟩] else []

/-- The calls that spell a forest. -/
def scriptAll : List Step → List Call
  | [] => []
  | s :: rest => script s ++ scriptAll rest

end

mutual

/-- Every tree is spelled by its script. -/
theorem spells_script : ∀ s : Step, s.Spells s.script
  | node name line children => by
      refine ⟨⟨name, line, none⟩, scriptAll children, _, rfl, rfl, rfl,
        spellsAll_scriptAll children, ?_⟩
      split
      · rename_i h
        rw [h]
        have hend : Role.ofName "end" = .close := by decide
        exact ⟨⟨"end", line, none⟩, hend, rfl⟩
      · rename_i h
        cases hrole : Role.ofName name with
        | block => exact absurd hrole h
        | branch owner => simp [Ending]
        | _ => rfl

theorem spellsAll_scriptAll : ∀ f : List Step, SpellsAll f (scriptAll f)
  | [] => rfl
  | s :: rest => ⟨_, _, rfl, spells_script s, spellsAll_scriptAll rest⟩

end

end Step

/-! ### Adding finished steps -/

namespace Replay

/-- Adds a finished step to the innermost block. -/
def add (r : Replay) (s : Step) : Replay := ⟨r.inner.add s, r.around⟩

/-- Adds finished steps to the innermost block, one after the other. -/
def addAll (r : Replay) (f : List Step) : Replay := f.foldl add r

@[simp] theorem addAll_cons (r : Replay) (s : Step) (f : List Step) :
    r.addAll (s :: f) = (r.add s).addAll f := rfl

theorem addAll_eq (r : Replay) (f : List Step) :
    r.addAll f =
      ⟨{ r.inner with finished := f.reverse ++ r.inner.finished }, r.around⟩ := by
  induction f generalizing r with
  | nil => rfl
  | cons s f ih =>
      rw [addAll_cons, ih, List.reverse_cons, List.append_assoc]
      rfl

@[simp] theorem inner_name_addAll (r : Replay) (f : List Step) :
    (r.addAll f).inner.name = r.inner.name := by
  rw [addAll_eq]

/-- Finishing a block that was opened and filled adds it to the block around it. -/
theorem finish_addAll_openBlock (r : Replay) (c : Call) (f : List Step) :
    ((r.openBlock c).addAll f).finish = r.add (.node c.name c.line f) := by
  rw [addAll_eq]
  simp only [openBlock, blocks, finish, OpenBlock.toStep, List.append_nil, List.reverse_reverse]
  rfl

/-! ### Replays up to an open branch -/

/-- `r'` is `r`, or `r` with the last step of its innermost block still open; that step is a
branch of the block. -/
def Trails (r r' : Replay) : Prop :=
  r' = r ∨
    ∃ inner outer around, r' = ⟨inner, outer :: around⟩ ∧ r'.finish = r ∧
      Role.ofName inner.name = .branch r.inner.name

theorem Trails.refl (r : Replay) : r.Trails r := .inl rfl

/-- Going back to the innermost block finishes the branch that is still open in it. -/
theorem Trails.backTo {r r' : Replay} (h : r.Trails r') : r'.backTo r.inner.name = r := by
  rcases h with rfl | ⟨inner, outer, around, rfl, hfinish, hrole⟩
  · simp [Replay.backTo, blocks, List.findIdx?_cons, finishMany]
  · -- the open branch itself is no block, so it is not named as its owner
    have hne : inner.name ≠ r.inner.name := by
      intro heq
      have hblock := Role.ofName_owner hrole
      rw [← heq, hrole] at hblock
      cases hblock
    have houter : outer.name = r.inner.name := by
      rw [← hfinish]
      rfl
    simp [Replay.backTo, blocks, List.findIdx?_cons, hne, houter, finishMany, hfinish]

/-- Closing finishes the innermost block, together with the branch that is still open in it. -/
theorem Trails.close {r r' : Replay} (h : r.Trails r') (hr : isBranch r.inner.name = false) :
    r'.close = r.finish := by
  rcases h with rfl | ⟨inner, outer, around, rfl, hfinish, hrole⟩
  · simp [Replay.close, hr]
  · simp [Replay.close, isBranch_of_ofName hrole, hfinish]

theorem Trails.foldl_backTo {r r' : Replay} (h : r.Trails r') {calls : List Call}
    (hcalls : ∀ c ∈ calls, c.role = .backTo r.inner.name) : r.Trails (calls.foldl call r') := by
  induction calls generalizing r' with
  | nil => exact h
  | cons c calls ih =>
      have hc : r'.call c = r := by
        rw [call, hcalls c List.mem_cons_self]
        exact h.backTo
      rw [List.foldl_cons, hc]
      exact ih (.refl r) fun c' hc' => hcalls c' (List.mem_cons_of_mem c hc')

/-- The calls add the steps `f`: replayed from `r'`, they lead to a replay that trails `r` with
the steps, and to exactly that replay when nothing is open before and none of the steps is a
branch. -/
def Adds (r r' : Replay) (f : List Step) (calls : List Call) : Prop :=
  (r.addAll f).Trails (calls.foldl call r') ∧
    (r' = r → (∀ s ∈ f, isBranch s.name = false) → calls.foldl call r' = r.addAll f)

/-- A block is finished by its closing call. -/
theorem foldl_block {r : Replay} {own closing : Call} {children : List Step} {body : List Call}
    (hrole : own.role = .block) (hclosing : closing.role = .close)
    (hbody : Adds (r.openBlock own) (r.openBlock own) children body) :
    (own :: body ++ [closing]).foldl call r = r.add (.node own.name own.line children) := by
  have hb : isBranch own.name = false :=
    isBranch_eq_false fun owner ho => by
      have hrole' : Role.ofName own.name = .block := hrole
      rw [hrole'] at ho
      cases ho
  have hopen : r.call own = r.openBlock own := by rw [call, hrole]
  have hclose (q : Replay) : q.call closing = q.close := by rw [call, hclosing]
  rw [List.cons_append, List.foldl_cons, List.foldl_append, hopen, List.foldl_cons,
    List.foldl_nil, hclose, hbody.1.close (by simpa [openBlock] using hb),
    finish_addAll_openBlock]

/-- A branch may still be open after the calls of its children and after the calls that go back
to its owner. -/
theorem trails_foldl_branch {r r' : Replay} {own : Call} {children : List Step}
    {body ending : List Call} (hrole : own.role = .branch r.inner.name) (ht : r.Trails r')
    (hending : ∀ c ∈ ending, c.role = .backTo r.inner.name)
    (hbody : body.foldl call (r.openBlock own) = (r.openBlock own).addAll children) :
    (r.add (.node own.name own.line children)).Trails
      ((own :: body ++ ending).foldl call r') := by
  have hopen : r'.call own = r.openBlock own := by
    rw [call, hrole]
    exact congrArg (openBlock own) ht.backTo
  rw [List.cons_append, List.foldl_cons, List.foldl_append, hopen, hbody]
  refine Trails.foldl_backTo ?_ hending
  exact .inr ⟨_, r.inner, r.around, addAll_eq _ _, finish_addAll_openBlock r own children, hrole⟩

mutual

/-- Replaying the calls of a step adds the step. -/
theorem adds_of_spells : ∀ (s : Step) {r r' : Replay} {calls : List Call},
    s.NestedIn r.inner.name → s.Spells calls → r.Trails r' →
      (r' = r ∨ isBranch s.name = true) → Adds r r' [s] calls
  | .node name line children, r, r', calls, hn, hs, ht, hr' => by
      obtain ⟨own, body, ending, rfl, rfl, rfl, hbody, hending⟩ := hs
      obtain ⟨hrole, hlast, hchildren⟩ := hn
      have hin := adds_of_spellsAll children (r := r.openBlock own) hchildren hlast hbody
        (.refl _) (.inl rfl)
      cases hname : Role.ofName own.name with
      | leaf =>
          rw [hname] at hrole hending
          cases hrole
          cases hbody
          cases hending
          have hb : isBranch own.name = false := isBranch_eq_false (by simp [hname])
          obtain rfl : r' = r := hr'.resolve_right (by simp [Step.name, hb])
          have hown : r'.call own = r'.addLeaf own := by rw [call, Call.role, hname]
          have hdone : [own].foldl call r' = r'.add (.node own.name own.line []) := hown
          exact ⟨.inl hdone, fun _ _ => hdone⟩
      | block =>
          rw [hname] at hending
          obtain ⟨closing, hclosing, rfl⟩ := hending
          have hb : isBranch own.name = false := isBranch_eq_false (by simp [hname])
          obtain rfl : r' = r := hr'.resolve_right (by simp [Step.name, hb])
          have hdone := foldl_block hname hclosing hin
          exact ⟨.inl hdone, fun _ _ => hdone⟩
      | branch owner =>
          rw [hname] at hrole hending
          obtain rfl : owner = r.inner.name := hrole
          -- the children of a branch are no branches, so all of them are finished
          have hfull := hin.2 rfl (hchildren.isBranch_eq_false (by simp [hname]))
          refine ⟨trails_foldl_branch hname ht hending hfull, fun _ hno => ?_⟩
          have hb := hno _ List.mem_cons_self
          rw [Step.name, isBranch_of_ofName hname] at hb
          cases hb
      | routeId => rw [hname] at hrole; exact hrole.elim
      | close => rw [hname] at hrole; exact hrole.elim
      | backTo owner => rw [hname] at hrole; exact hrole.elim
      | other => rw [hname] at hrole; exact hrole.elim

theorem adds_of_spellsAll : ∀ (f : List Step) {r r' : Replay} {calls : List Call},
    Step.NestedAllIn r.inner.name f → Step.BranchesLast f → Step.SpellsAll f calls →
      r.Trails r' → (r' = r ∨ ∀ s ∈ f, isBranch s.name = true) → Adds r r' f calls
  | [], r, r', calls, _, _, hs, ht, _ => by
      cases hs
      exact ⟨ht, fun heq _ => heq⟩
  | s :: rest, r, r', calls, hn, hl, hs, ht, hr' => by
      obtain ⟨first, others, rfl, hfirst, hothers⟩ := hs
      obtain ⟨hns, hnrest⟩ := hn
      obtain ⟨hls, hlrest⟩ := List.pairwise_cons.mp hl
      obtain ⟨htrails, hexact⟩ := adds_of_spells s hns hfirst ht
        (hr'.imp_right fun h => h s List.mem_cons_self)
      have hnext : first.foldl call r' = r.add s ∨ ∀ t ∈ rest, isBranch t.name = true := by
        by_cases hb : isBranch s.name = true
        · exact .inr fun t ht => hls t ht hb
        · have heq := hr'.resolve_right fun h => hb (h s List.mem_cons_self)
          exact .inl (hexact heq (by simpa using hb))
      obtain ⟨htrails', hexact'⟩ := adds_of_spellsAll rest (r := r.add s) hnrest hlrest hothers
        htrails hnext
      refine ⟨by rw [List.foldl_append]; exact htrails', fun heq hno => ?_⟩
      rw [List.foldl_append]
      refine hexact' (hexact heq ?_) fun t ht => hno t (List.mem_cons_of_mem s ht)
      simpa using hno s List.mem_cons_self

end

/-! ### The outermost level -/

theorem foldl_close_of_around_nil {r : Replay} (haround : r.around = [])
    (hr : isBranch r.inner.name = false) {calls : List Call}
    (hcalls : ∀ c ∈ calls, c.role = .close) : calls.foldl call r = r := by
  induction calls with
  | nil => rfl
  | cons c calls ih =>
      have hc : r.call c = r := by
        rw [call, hcalls c List.mem_cons_self]
        simp only
        rw [(Trails.refl r).close hr, finish, haround]
      rw [List.foldl_cons, hc]
      exact ih fun c' hc' => hcalls c' (List.mem_cons_of_mem c hc')

/-- Replaying the calls of a forest on the outermost level adds its steps, also with closing
calls too many. -/
theorem foldl_spellsApart : ∀ (f : List Step) {r : Replay} {calls : List Call},
    r.around = [] → Role.ofName r.inner.name ≠ .block → isBranch r.inner.name = false →
      Step.NestedAllIn r.inner.name f → Step.SpellsApart f calls →
        calls.foldl call r = r.addAll f
  | [], r, calls, haround, _, hr, _, hs => foldl_close_of_around_nil haround hr hs
  | s :: rest, r, calls, haround, hblock, hr, hn, hs => by
      obtain ⟨closers, first, others, rfl, hclosers, hfirst, hothers⟩ := hs
      obtain ⟨hns, hnrest⟩ := hn
      have hb := hns.isBranch_eq_false hblock
      obtain ⟨-, hexact⟩ := adds_of_spells s hns hfirst (.refl r) (.inl rfl)
      rw [List.foldl_append, List.foldl_append, foldl_close_of_around_nil haround hr hclosers,
        hexact rfl (by simpa using hb)]
      exact foldl_spellsApart rest (r := r.add s) haround hblock hr hnrest hothers

/-! ### Calls that do not matter -/

theorem foldl_filter_other (calls : List Call) (r : Replay) :
    (calls.filter (·.role ≠ .other)).foldl call r = calls.foldl call r := by
  induction calls generalizing r with
  | nil => rfl
  | cons c calls ih =>
      by_cases hc : c.role = .other
      · have : r.call c = r := by rw [call, hc]
        rw [List.filter_cons_of_neg (by simpa using hc), ih, List.foldl_cons, this]
      · rw [List.filter_cons_of_pos (by simpa using hc), List.foldl_cons, List.foldl_cons, ih]

theorem toStep_finish (r : Replay) : r.finish.toStep = r.toStep := by
  obtain ⟨inner, around⟩ := r
  cases around <;> rfl

theorem toStep_finishMany (n : Nat) (r : Replay) : (r.finishMany n).toStep = r.toStep := by
  induction n generalizing r with
  | zero => rfl
  | succ n ih => rw [finishMany, ih, toStep_finish]

/-- A call that is no step does not change the tree, as long as no step follows. -/
theorem toStep_call {c : Call} (hc : c.role.isStep = false) (r : Replay) :
    (r.call c).toStep = r.toStep := by
  unfold call
  cases hrole : c.role with
  | leaf => rw [hrole] at hc; cases hc
  | block => rw [hrole] at hc; cases hc
  | branch owner => rw [hrole] at hc; cases hc
  | close =>
      simp only [Replay.close]
      split
      · rw [toStep_finish, toStep_finish]
      · exact toStep_finish r
  | backTo owner =>
      simp only [Replay.backTo]
      split
      · exact toStep_finishMany _ r
      · rfl
  | routeId => rfl
  | other => rfl

theorem toStep_foldl_call {calls : List Call} (hcalls : ∀ c ∈ calls, c.role.isStep = false)
    (r : Replay) : (calls.foldl call r).toStep = r.toStep := by
  induction calls generalizing r with
  | nil => rfl
  | cons c calls ih =>
      rw [List.foldl_cons, ih fun c' hc' => hcalls c' (List.mem_cons_of_mem c hc'),
        toStep_call (hcalls c List.mem_cons_self)]

end Replay

namespace Chain

/-- Calls that spell the children of a well-nested tree, replayed after its first call, give the
tree. -/
theorem toStep_of_spellsApart {root : Step} (hroot : root.WellNested) {start : Call}
    (hname : start.name = root.name) (hline : start.line = root.line) {calls : List Call}
    (hcalls : Step.SpellsApart root.children calls) :
    (calls.foldl Replay.call (.start start)).toStep = root := by
  obtain ⟨name, line, children⟩ := root
  obtain ⟨rfl, -, hnested⟩ := hroot
  obtain ⟨name, _, literal⟩ := start
  cases hname
  cases hline
  have hother : Role.ofName "from" = .other := by decide
  rw [Replay.foldl_spellsApart children rfl (by simp [Replay.start, hother])
    (isBranch_eq_false (by simp [Replay.start, hother])) hnested hcalls, Replay.addAll_eq]
  simp [Replay.toStep, Replay.start, Replay.finishMany, OpenBlock.toStep]

/-- Replaying undoes the spelling of a well-nested tree.  Its script is replayed to the tree,
names and lines included, and so is every chain that spells it: with any closing calls and any
calls back to the owner at the end of branches, with closing calls too many on the outermost
level, with unknown calls anywhere after the first, and with calls that are no steps, such as
the closing calls at the end, left out behind. -/
theorem steps_of_spells {root : Step} (hroot : root.WellNested) :
    (⟨⟨root.name, root.line, none⟩, Step.scriptAll root.children⟩ : Chain).steps = root ∧
      ∀ (c : Chain) (omitted : List Call),
        c.start.name = root.name → c.start.line = root.line →
        (∀ x ∈ omitted, x.role.isStep = false) →
        Step.SpellsApart root.children (c.rest.filter (·.role ≠ .other) ++ omitted) →
        c.steps = root := by
  constructor
  · exact toStep_of_spellsApart hroot rfl rfl (Step.spellsAll_scriptAll root.children).apart
  · intro c omitted hname hline homitted hcalls
    have h := toStep_of_spellsApart hroot hname hline hcalls
    rw [List.foldl_append, Replay.toStep_foldl_call homitted, Replay.foldl_filter_other] at h
    exact h

/-- A choice with two branches, followed by a split. -/
def choiceTree : Step :=
  .node "from" 1
    [.node "choice" 2 [.node "when" 3 [.node "to" 4 []], .node "otherwise" 5 [.node "log" 6 []]],
      .node "split" 8 [.node "to" 9 []]]

/-- Calls that spell `choiceTree`: the first branch goes back to the choice, the choice is closed
once too often, an unknown call stands behind `split`, and the split is not closed. -/
def choiceChain : Chain where
  start := ⟨"from", 1, some "direct:a"⟩
  rest :=
    [⟨"choice", 2, none⟩, ⟨"when", 3, none⟩, ⟨"to", 4, some "mock:a"⟩, ⟨"endChoice", 4, none⟩,
      ⟨"otherwise", 5, none⟩, ⟨"log", 6, none⟩, ⟨"endParent", 7, none⟩, ⟨"end", 7, none⟩,
      ⟨"split", 8, none⟩, ⟨"streaming", 8, none⟩, ⟨"to", 9, none⟩]

theorem steps_of_choiceChain :
    choiceTree.WellNested ∧
      Step.SpellsApart choiceTree.children
        (choiceChain.rest.filter (·.role ≠ .other) ++ [⟨"end", 10, none⟩]) ∧
      choiceChain.steps = choiceTree := by
  have hnested : choiceTree.WellNested := ⟨rfl, by decide, by decide⟩
  have hwhen : Step.Spells (.node "when" 3 [.node "to" 4 []])
      [⟨"when", 3, none⟩, ⟨"to", 4, some "mock:a"⟩, ⟨"endChoice", 4, none⟩] :=
    ⟨_, [_], [_], rfl, rfl, rfl,
      ⟨_, [], rfl, Step.spells_leaf ⟨"to", 4, some "mock:a"⟩ (by decide), rfl⟩,
      Step.ending_branch "choice" (by decide) (by decide)⟩
  have hotherwise : Step.Spells (.node "otherwise" 5 [.node "log" 6 []])
      [⟨"otherwise", 5, none⟩, ⟨"log", 6, none⟩] :=
    ⟨_, [_], [], rfl, rfl, rfl,
      ⟨_, [], rfl, Step.spells_leaf ⟨"log", 6, none⟩ (by decide), rfl⟩,
      Step.ending_branch "choice" (by decide) (by decide)⟩
  have hspells : Step.SpellsApart choiceTree.children
      (choiceChain.rest.filter (·.role ≠ .other) ++ [⟨"end", 10, none⟩]) :=
    ⟨[], _ :: (_ ++ _) ++ [_], _, rfl, by decide,
      ⟨⟨"choice", 2, none⟩, _, [⟨"endParent", 7, none⟩], rfl, rfl, rfl,
        ⟨_, _, rfl, hwhen, _, [], rfl, hotherwise, rfl⟩,
        Step.ending_block (by decide) (by decide)⟩,
      [⟨"end", 7, none⟩], [⟨"split", 8, none⟩, ⟨"to", 9, none⟩, ⟨"end", 10, none⟩], [],
      rfl, by decide,
      ⟨_, [_], [_], rfl, rfl, rfl,
        ⟨_, [], rfl, Step.spells_leaf ⟨"to", 9, none⟩ (by decide), rfl⟩,
        Step.ending_block (by decide) (by decide)⟩,
      List.forall_mem_nil _⟩
  exact ⟨hnested, hspells, (steps_of_spells hnested).2 choiceChain [⟨"end", 10, none⟩] rfl rfl
    (by decide) hspells⟩

end Chain

end RouteCoverage
