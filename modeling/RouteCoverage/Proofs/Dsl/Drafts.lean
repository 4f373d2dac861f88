import RouteCoverage.Dsl.Chains
import RouteCoverage.Proofs.Dsl.Order
import RouteCoverage.Proofs.Dsl.Spelling

/-!
# Replaying over numbered drafts

A chain can be replayed over a table of drafts as well, one for each step, numbered in the order of
the calls.  A draft lists the numbers of its children, the open drafts are a stack of numbers, and
the tree is assembled from the table at the end (`Drafts`).  The drafts of a replay are those of
its open blocks in pre-order (`Replay.drafts`), and every call does the same to both
(`drafts_call`).

The stack of open drafts is the rightmost path of the tree (`Drafts.Threaded`): it leads from the
route itself to the draft that takes the next step, over last children.  Every call keeps this
(`Threaded.call`), and with it goes what closing calls do, and that assembling comes to an end
without a number that the table lacks (`threaded_drafts`).
-/

namespace RouteCoverage

/-- A step under construction.  Its children are given by their numbers. -/
structure Draft where
  name : String
  line : Nat
  children : List Nat
deriving DecidableEq, Repr

def Draft.addChild (b : Draft) (k : Nat) : Draft := { b with children := b.children ++ [k] }

/-- A replay over numbered drafts: the drafts by number, and the numbers of the open ones from the
inside out. -/
structure Drafts where
  table : List Draft
  opened : List Nat
deriving DecidableEq, Repr

namespace Drafts

def nameAt (d : Drafts) (i : Nat) : Option String := d.table[i]?.map (·.name)

def childrenAt (d : Drafts) (i : Nat) : List Nat := (d.table[i]?.map (·.children)).getD []

/-- The drafts after the first call of a chain. -/
def start (c : Call) : Drafts := ⟨[⟨c.name, c.line, []⟩], [0]⟩

/-- Adds a draft, as the last child of the innermost open one. -/
def addStep (d : Drafts) (c : Call) : Drafts :=
  { d with
    table := (d.table ++ [Draft.mk c.name c.line []]).modify (d.opened.headD 0)
      (·.addChild d.table.length) }

/-- Adds a draft, and opens it. -/
def openStep (d : Drafts) (c : Call) : Drafts :=
  { d.addStep c with opened := d.table.length :: d.opened }

/-- Makes the innermost open draft named `owner` the innermost one; without such a draft nothing
changes. -/
def backTo (d : Drafts) (owner : String) : Drafts :=
  match d.opened.findIdx? fun i => d.nameAt i = some owner with
  | some depth => { d with opened := d.opened.drop depth }
  | none => d

/-- Closes the innermost draft, and with a branch also the draft around it; the outermost draft
stays open. -/
def close (d : Drafts) : Drafts :=
  match d.opened with
  | closed :: outer :: rest =>
      if (d.nameAt closed).any isBranch && !rest.isEmpty then { d with opened := rest }
      else { d with opened := outer :: rest }
  | _ => d

theorem close_eq {d : Drafts} {closed outer : Nat} {rest : List Nat} {name : String}
    (hopened : d.opened = closed :: outer :: rest) (hname : d.nameAt closed = some name) :
    d.close =
      { d with opened := if isBranch name = true ∧ rest ≠ [] then rest else outer :: rest } := by
  unfold close
  rw [hopened]
  dsimp only
  rw [hname]
  cases rest <;> cases hbranch : isBranch name <;> simp [hbranch]

def call (d : Drafts) (c : Call) : Drafts :=
  match c.role with
  | .leaf => d.addStep c
  | .block => d.openStep c
  | .branch owner => (d.backTo owner).openStep c
  | .close => d.close
  | .backTo owner => d.backTo owner
  | .routeId | .other => d

/-- The tree of the draft with a number; `missing` stands for a number that the table lacks.
Drafts are followed `fuel` deep. -/
def assemble (d : Drafts) (missing : Step) : Nat → Nat → Option Step
  | 0, _ => none
  | fuel + 1, i =>
    match d.table[i]? with
    | none => some missing
    | some draft =>
      (draft.children.mapM (assemble d missing fuel)).map (.node draft.name draft.line)

end Drafts

/-! ### The drafts of a tree -/

namespace Step

/-- The numbers of the roots of a forest whose steps are numbered in pre-order. -/
def numbers (first : Nat) : List Step → List Nat
  | [] => []
  | s :: rest => first :: numbers (first + s.size) rest

mutual

/-- The drafts of a tree whose steps are numbered in pre-order. -/
def drafts (first : Nat) : Step → List Draft
  | node name line children =>
      ⟨name, line, numbers (first + 1) children⟩ :: draftsAll (first + 1) children

/-- The drafts of a forest whose steps are numbered in pre-order. -/
def draftsAll (first : Nat) : List Step → List Draft
  | [] => []
  | s :: rest => drafts first s ++ draftsAll (first + s.size) rest

end

mutual

theorem length_drafts (first : Nat) : ∀ s : Step, (s.drafts first).length = s.size
  | node _ _ children => by
      rw [drafts, size, List.length_cons, length_draftsAll (first + 1) children, Nat.add_comm]

/-- A forest has a draft for each step. -/
theorem length_draftsAll (first : Nat) : ∀ f : List Step, (draftsAll first f).length = sizeAll f
  | [] => rfl
  | s :: rest => by
      rw [draftsAll, sizeAll, List.length_append, length_drafts first s, length_draftsAll _ rest]

end

theorem numbers_append (first : Nat) (f g : List Step) :
    numbers first (f ++ g) = numbers first f ++ numbers (first + sizeAll f) g := by
  induction f generalizing first with
  | nil => rfl
  | cons s f ih => rw [List.cons_append, numbers, ih, numbers, sizeAll, Nat.add_assoc]; rfl

theorem draftsAll_append (first : Nat) (f g : List Step) :
    draftsAll first (f ++ g) = draftsAll first f ++ draftsAll (first + sizeAll f) g := by
  induction f generalizing first with
  | nil => rfl
  | cons s f ih =>
      rw [List.cons_append, draftsAll, ih, draftsAll, sizeAll, Nat.add_assoc, List.append_assoc]

end Step

/-! ### The drafts of a replay -/

namespace OpenBlock

/-- The number of steps in an open block, its own included. -/
def size (b : OpenBlock) : Nat := 1 + Step.sizeAll b.finished.reverse

end OpenBlock

namespace Replay

def sizeOpen : List OpenBlock → Nat
  | [] => 0
  | b :: around => sizeOpen around + b.size

/-- The numbers of open blocks, from the inside out. -/
def openNumbers : List OpenBlock → List Nat
  | [] => []
  | _ :: around => sizeOpen around :: openNumbers around

/-- The drafts of open blocks and of what is finished in them.  The innermost block has further
children at the end, those numbered `more`; for the blocks around it this is the open one inside. -/
def openDrafts (more : List Nat) : List OpenBlock → List Draft
  | [] => []
  | b :: around =>
      openDrafts [sizeOpen around] around ++
        ⟨b.name, b.line, Step.numbers (sizeOpen around + 1) b.finished.reverse ++ more⟩ ::
          Step.draftsAll (sizeOpen around + 1) b.finished.reverse

def drafts (r : Replay) : Drafts := ⟨openDrafts [] r.blocks, openNumbers r.blocks⟩

theorem length_openDrafts (more : List Nat) (blocks : List OpenBlock) :
    (openDrafts more blocks).length = sizeOpen blocks := by
  induction blocks generalizing more with
  | nil => rfl
  | cons b around ih =>
      rw [openDrafts, sizeOpen, OpenBlock.size, List.length_append, ih, List.length_cons,
        Step.length_draftsAll, Nat.add_comm 1]

theorem drafts_start (c : Call) : (start c).drafts = .start c := rfl

/-- Changing the element behind a list changes this one only. -/
theorem modify_append_cons {α : Type} {n : Nat} {before : List α} (h : before.length = n)
    (f : α → α) (a : α) (after : List α) :
    (before ++ a :: after).modify n f = before ++ f a :: after := by
  subst h
  induction before with
  | nil => rfl
  | cons b before ih => rw [List.cons_append, List.length_cons, List.modify_succ_cons, ih]; rfl

theorem openDrafts_modify (b : OpenBlock) (around : List OpenBlock) (k : Nat)
    (after : List Draft) :
    (openDrafts [] (b :: around) ++ after).modify (sizeOpen around) (·.addChild k) =
      openDrafts [k] (b :: around) ++ after := by
  rw [openDrafts, openDrafts, List.append_assoc, List.cons_append,
    modify_append_cons (length_openDrafts _ around), List.append_nil, Draft.addChild,
    List.append_assoc, List.cons_append]

theorem drafts_openBlock (r : Replay) (c : Call) :
    (r.openBlock c).drafts = r.drafts.openStep c := by
  obtain ⟨inner, around⟩ := r
  have hmodify := openDrafts_modify inner around (sizeOpen (inner :: around))
    [⟨c.name, c.line, []⟩]
  simp only [Drafts.openStep, Drafts.addStep, drafts, blocks, openBlock, openNumbers,
    length_openDrafts, List.headD_cons]
  rw [hmodify]
  rfl

/-- Finishing the innermost block leaves the drafts as they are, and takes its number off the open
ones. -/
theorem drafts_finish (inner outer : OpenBlock) (around : List OpenBlock) :
    (finish ⟨inner, outer :: around⟩).drafts =
      { drafts ⟨inner, outer :: around⟩ with opened := openNumbers (outer :: around) } := by
  have htable : openDrafts [] (outer.add inner.toStep :: around) =
      openDrafts [] (inner :: outer :: around) := by
    have hsize : sizeOpen (outer :: around) =
        sizeOpen around + 1 + Step.sizeAll outer.finished.reverse := by
      rw [sizeOpen, OpenBlock.size, Nat.add_assoc]
    simp only [openDrafts, OpenBlock.add, OpenBlock.toStep, List.reverse_cons,
      Step.numbers_append, Step.draftsAll_append, Step.numbers, Step.draftsAll, Step.drafts,
      hsize, List.append_nil, List.append_assoc, List.cons_append]
  exact congrArg (Drafts.mk · _) htable

theorem drafts_addLeaf (r : Replay) (c : Call) : (r.addLeaf c).drafts = r.drafts.addStep c := by
  have hfinish : r.addLeaf c = (r.openBlock c).finish := rfl
  have hopen := drafts_openBlock r c
  rw [hfinish, openBlock, blocks, drafts_finish, ← blocks, ← openBlock, hopen]
  rfl

theorem drafts_finishMany {n : Nat} {r : Replay} (h : n ≤ r.around.length) :
    (r.finishMany n).drafts = { r.drafts with opened := r.drafts.opened.drop n } := by
  induction n generalizing r with
  | zero => rfl
  | succ n ih =>
      obtain ⟨inner, around⟩ := r
      cases around with
      | nil => simp at h
      | cons outer around =>
          rw [finishMany, ih (r := finish ⟨inner, outer :: around⟩) (Nat.le_of_succ_le_succ h),
            drafts_finish]
          rfl

theorem map_name_openDrafts (blocks : List OpenBlock) (more : List Nat) (after : List Draft) :
    (openNumbers blocks).map (fun i => (openDrafts more blocks ++ after)[i]?.map (·.name)) =
      blocks.map fun b => some b.name := by
  induction blocks generalizing more after with
  | nil => rfl
  | cons b around ih =>
      rw [openDrafts, List.append_assoc, openNumbers, List.map_cons, List.map_cons, ih,
        List.getElem?_append_right (Nat.le_of_eq (length_openDrafts ..)), length_openDrafts,
        Nat.sub_self]
      rfl

theorem map_nameAt_opened (r : Replay) :
    r.drafts.opened.map r.drafts.nameAt = r.blocks.map fun b => some b.name := by
  have hnames := map_name_openDrafts r.blocks [] []
  rw [List.append_nil] at hnames
  exact hnames

theorem drafts_backTo (r : Replay) (owner : String) :
    (r.backTo owner).drafts = r.drafts.backTo owner := by
  have hfind : r.drafts.opened.findIdx? (fun i => r.drafts.nameAt i = some owner) =
      r.blocks.findIdx? (·.name = owner) := by
    have hmap := congrArg (List.findIdx? (· = some owner)) (map_nameAt_opened r)
    rw [List.findIdx?_map, List.findIdx?_map] at hmap
    refine hmap.trans (congrArg (r.blocks.findIdx? ·) (funext fun b => ?_))
    simp
  unfold backTo Drafts.backTo
  rw [hfind]
  cases h : r.blocks.findIdx? (·.name = owner) with
  | none => rfl
  | some depth =>
      obtain ⟨hlt, -⟩ := List.findIdx?_eq_some_iff_getElem.mp h
      exact drafts_finishMany (Nat.le_of_lt_succ hlt)

theorem drafts_close (r : Replay) : r.close.drafts = r.drafts.close := by
  obtain ⟨inner, around⟩ := r
  have hname : (drafts ⟨inner, around⟩).nameAt (sizeOpen around) = some inner.name :=
    (List.cons_eq_cons.mp (map_nameAt_opened ⟨inner, around⟩)).1
  unfold close
  cases around with
  | nil => split <;> rfl
  | cons outer around =>
      have hopened : (drafts ⟨inner, outer :: around⟩).opened =
          sizeOpen (outer :: around) :: sizeOpen around :: openNumbers around := rfl
      rw [Drafts.close_eq hopened hname]
      cases isBranch inner.name with
      | false =>
          rw [if_neg Bool.false_ne_true, drafts_finish]
          simp [openNumbers]
      | true =>
          rw [if_pos rfl]
          cases around with
          | nil =>
              -- the route itself is around the branch, and stays open
              exact drafts_finish inner outer []
          | cons outermost around =>
              have htwice : finishMany 2 ⟨inner, outer :: outermost :: around⟩ =
                  (finish ⟨inner, outer :: outermost :: around⟩).finish := rfl
              rw [← htwice, drafts_finishMany (by simp)]
              simp [openNumbers, drafts, blocks]

theorem drafts_call (r : Replay) (c : Call) : (r.call c).drafts = r.drafts.call c := by
  unfold call Drafts.call
  cases c.role with
  | leaf => exact drafts_addLeaf r c
  | block => exact drafts_openBlock r c
  | branch owner =>
      dsimp only
      rw [drafts_openBlock, drafts_backTo]
  | close => exact drafts_close r
  | backTo owner => exact drafts_backTo r owner
  | routeId => rfl
  | other => rfl

theorem drafts_foldl_call (calls : List Call) (r : Replay) :
    (calls.foldl call r).drafts = calls.foldl Drafts.call r.drafts := by
  induction calls generalizing r with
  | nil => rfl
  | cons c calls ih => rw [List.foldl_cons, List.foldl_cons, ih, drafts_call]

end Replay

/-! ### Assembling drafts -/

namespace Step

mutual

/-- Where the drafts of a tree stand in the table, they are assembled to that tree. -/
theorem assemble_drafts {d : Drafts} (missing : Step) : ∀ (s : Step) (first fuel : Nat),
    s.drafts first <+: d.table.drop first → s.size ≤ fuel →
      d.assemble missing fuel first = some s
  | node _ _ _, _, 0, _, hfuel => by
      rw [size] at hfuel
      omega
  | node name line children, first, fuel + 1, htable, hfuel => by
      obtain ⟨after, htable⟩ := htable
      rw [drafts, List.cons_append] at htable
      have hdraft : d.table[first]? = some ⟨name, line, numbers (first + 1) children⟩ := by
        rw [← List.head?_drop, ← htable]
        rfl
      have hbelow : draftsAll (first + 1) children <+: d.table.drop (first + 1) := by
        rw [← List.tail_drop, ← htable]
        exact List.prefix_append _ _
      rw [size] at hfuel
      have hchildren := assemble_draftsAll missing children (first + 1) fuel hbelow (by omega)
      rw [Drafts.assemble, hdraft]
      dsimp only
      rw [hchildren]
      rfl

theorem assemble_draftsAll {d : Drafts} (missing : Step) : ∀ (f : List Step) (first fuel : Nat),
    draftsAll first f <+: d.table.drop first → sizeAll f ≤ fuel →
      (numbers first f).mapM (d.assemble missing fuel) = some f
  | [], _, _, _, _ => rfl
  | s :: rest, first, fuel, htable, hfuel => by
      rw [draftsAll] at htable
      rw [sizeAll] at hfuel
      have hothers : draftsAll (first + s.size) rest <+: d.table.drop (first + s.size) := by
        obtain ⟨after, htable⟩ := htable
        rw [← List.drop_drop, ← htable, List.append_assoc,
          List.drop_left' (length_drafts first s)]
        exact List.prefix_append _ _
      have hfirst := assemble_drafts missing s first fuel
        ((List.prefix_append _ _).trans htable) (by omega)
      have hrest := assemble_draftsAll missing rest (first + s.size) fuel hothers (by omega)
      rw [numbers, List.mapM_cons, hfirst, hrest]
      rfl

end

end Step

namespace Replay

/-- The drafts of a replay are those of its tree. -/
theorem table_drafts (r : Replay) : r.drafts.table = r.toStep.drafts 0 := by
  have haround := around_finishMany_length r
  have hfinished := congrArg Drafts.table (drafts_finishMany (Nat.le_refl r.around.length))
  rw [← hfinished, toStep, drafts, blocks, haround]
  simp [openDrafts, sizeOpen, OpenBlock.toStep, Step.drafts]

theorem assemble_drafts (r : Replay) (missing : Step) :
    r.drafts.assemble missing r.drafts.table.length 0 = some r.toStep := by
  refine Step.assemble_drafts missing r.toStep 0 _ ⟨[], ?_⟩ (Nat.le_of_eq ?_)
  · rw [List.append_nil, List.drop_zero, table_drafts]
  · rw [table_drafts, Step.length_drafts]

end Replay

/-! ### The open drafts are a path -/

namespace Drafts

section

variable {d : Drafts} {c : Call}

theorem length_table_addStep (d : Drafts) (c : Call) :
    (d.addStep c).table.length = d.table.length + 1 := by
  simp [addStep]

theorem nameAt_addStep (d : Drafts) (c : Call) (i : Nat) :
    (d.addStep c).nameAt i = if i = d.table.length then some c.name else d.nameAt i := by
  unfold nameAt addStep
  dsimp only
  rw [List.getElem?_modify, List.getElem?_append, Option.map_eq_map, Option.map_map]
  have hname : (fun b : Draft => b.name) ∘ (fun b => if d.opened.headD 0 = i then
      b.addChild d.table.length else b) = (·.name) := by
    funext b
    dsimp only [Function.comp]
    split <;> rfl
  rw [hname]
  split
  · rw [if_neg (by omega)]
  · split
    · next hi => simp [hi]
    · rw [List.getElem?_eq_none (by simp; omega), List.getElem?_eq_none (by omega)]

theorem childrenAt_addStep {parent : Nat} {around : List Nat}
    (hopened : d.opened = parent :: around) (hvalid : parent < d.table.length) (c : Call)
    (i : Nat) :
    (d.addStep c).childrenAt i =
      d.childrenAt i ++ if i = parent then [d.table.length] else [] := by
  unfold childrenAt addStep
  dsimp only
  rw [List.getElem?_modify, hopened, List.headD_cons, List.getElem?_append]
  by_cases hi : i < d.table.length
  · rw [if_pos hi, List.getElem?_eq_getElem hi]
    by_cases hparent : i = parent
    · simp [hparent, Draft.addChild]
    · simp [hparent, Ne.symm hparent]
  · -- the new draft has no children, and there is none behind it
    rw [if_neg hi, List.getElem?_eq_none (Nat.not_lt.mp hi), if_neg (by omega)]
    by_cases hnew : i = d.table.length
    · simp [hnew, Nat.ne_of_lt hvalid]
    · rw [List.getElem?_eq_none (by rw [List.length_singleton]; omega)]
      rfl

/-- Going back to an owner leaves it innermost, or finds none. -/
theorem backTo_cases (d : Drafts) (owner : String) :
    (∃ rest, rest <:+ d.opened ∧ (∃ j ∈ rest.head?, d.nameAt j = some owner) ∧
      d.backTo owner = { d with opened := rest }) ∨
    (∀ j ∈ d.opened, d.nameAt j ≠ some owner) ∧ d.backTo owner = d := by
  unfold Drafts.backTo
  cases hfind : d.opened.findIdx? fun i => d.nameAt i = some owner with
  | none =>
      rw [List.findIdx?_eq_none_iff] at hfind
      exact .inr ⟨fun j hj => by simpa using hfind j hj, rfl⟩
  | some depth =>
      obtain ⟨hlt, hname, -⟩ := List.findIdx?_eq_some_iff_getElem.mp hfind
      refine .inl ⟨d.opened.drop depth, List.drop_suffix _ _, ⟨d.opened[depth], ?_, ?_⟩, rfl⟩
      · rw [List.head?_drop, List.getElem?_eq_getElem hlt]
        rfl
      · simpa using hname

/-- The open drafts are the rightmost path of a tree. -/
structure Threaded (d : Drafts) : Prop where
  /-- the outermost open draft is the first one -/
  root : d.opened.getLast? = some 0
  /-- numbers increase from the outside in -/
  increasing : d.opened.Pairwise (· > ·)
  valid : ∀ i ∈ d.opened, i < d.table.length
  /-- every open draft is the last child of the one around it -/
  lastChild : ∀ inside i j outside, d.opened = inside ++ i :: j :: outside →
    (d.childrenAt j).getLast? = some i
  /-- all open drafts but the outermost are blocks or branches -/
  kinds : ∀ i ∈ d.opened.dropLast, ∃ name, d.nameAt i = some name ∧
    (Role.ofName name = .block ∨ ∃ owner, Role.ofName name = .branch owner)
  /-- children have greater numbers, and stand in the table -/
  forward : ∀ i, ∀ k ∈ d.childrenAt i, i < k ∧ k < d.table.length
  /-- every draft but the first is a child once, of one draft -/
  once : ∀ k, 0 < k → k < d.table.length →
    ∃ parent < k, (d.childrenAt parent).count k = 1 ∧ ∀ i ≠ parent, k ∉ d.childrenAt i
  /-- a branch stands directly in its owner, or no draft around it has the owner's name -/
  owners : ∀ inside i outside name owner, d.opened = inside ++ i :: outside →
    d.nameAt i = some name → Role.ofName name = .branch owner →
      (∃ j ∈ outside.head?, d.nameAt j = some owner) ∨ ∀ j ∈ outside, d.nameAt j ≠ some owner

namespace Threaded

theorem start (c : Call) : (Drafts.start c).Threaded where
  root := rfl
  increasing := List.pairwise_singleton _ _
  valid := by simp [Drafts.start]
  lastChild := by
    intro inside i j outside hopened
    rcases inside with - | ⟨_, inside⟩ <;> simp [Drafts.start] at hopened
  kinds := by simp [Drafts.start]
  forward := by
    intro i k hk
    rcases i with - | i <;> simp [Drafts.start, childrenAt] at hk
  once := by
    intro k hpos hlt
    simp [Drafts.start] at hlt
    omega
  owners := by
    intro inside i outside name owner hopened _ _
    rcases inside with - | ⟨_, inside⟩ <;> simp [Drafts.start] at hopened
    rw [hopened.2]
    exact .inr nofun

/-- Drafts may be closed from the inside, as long as one stays open. -/
theorem suffix (h : d.Threaded) {rest : List Nat} (hsuffix : rest <:+ d.opened)
    (hne : rest ≠ []) : Threaded { d with opened := rest } := by
  obtain ⟨closed, hclosed⟩ := hsuffix
  refine ⟨?_, ?_, ?_, ?_, ?_, h.forward, h.once, ?_⟩
  · have hroot := h.root
    rw [← hclosed, List.getLast?_append, List.getLast?_eq_some_getLast hne] at hroot
    rw [List.getLast?_eq_some_getLast hne]
    exact hroot
  · have hincreasing := h.increasing
    rw [← hclosed, List.pairwise_append] at hincreasing
    exact hincreasing.2.1
  · intro i hi
    exact h.valid i (hclosed ▸ List.mem_append_right closed hi)
  · intro inside i j outside hopened
    refine h.lastChild (closed ++ inside) i j outside ?_
    rw [← hclosed, List.append_assoc]
    exact congrArg (closed ++ ·) hopened
  · intro i hi
    refine h.kinds i ?_
    rw [← hclosed, List.dropLast_append_of_ne_nil hne]
    exact List.mem_append_right closed hi
  · intro inside i outside name owner hopened
    refine h.owners (closed ++ inside) i outside name owner ?_
    rw [← hclosed, List.append_assoc]
    exact congrArg (closed ++ ·) hopened

theorem exists_opened (h : d.Threaded) : ∃ parent around, d.opened = parent :: around :=
  List.exists_cons_of_ne_nil fun hnil => by
    have hroot := h.root
    rw [hnil] at hroot
    cases hroot

section

variable (h : d.Threaded) {parent : Nat} {around : List Nat}
  (hopened : d.opened = parent :: around) (c : Call)

include h hopened

theorem innermost_lt : parent < d.table.length := h.valid parent (hopened ▸ List.mem_cons_self)

theorem lt_innermost : ∀ j ∈ around, j < parent := by
  have hincreasing := h.increasing
  rw [hopened, List.pairwise_cons] at hincreasing
  exact hincreasing.1

omit hopened in
theorem nameAt_addStep_of_opened {i : Nat} (hi : i ∈ d.opened) :
    (d.addStep c).nameAt i = d.nameAt i := by
  rw [nameAt_addStep, if_neg (Nat.ne_of_lt (h.valid i hi))]

/-- Only the innermost open draft has a new child, and it is around no other. -/
theorem lastChild_addStep {inside outside : List Nat} {i j : Nat}
    (hsplit : d.opened = inside ++ i :: j :: outside) :
    ((d.addStep c).childrenAt j).getLast? = some i := by
  have hmem : j ∈ around := by
    have hsplit' := hsplit
    rw [hopened] at hsplit'
    cases inside with
    | nil =>
        rw [(List.cons_eq_cons.mp hsplit').2]
        exact List.mem_cons_self
    | cons first inside =>
        rw [(List.cons_eq_cons.mp hsplit').2]
        exact List.mem_append_right inside (List.mem_cons_of_mem i List.mem_cons_self)
  have hne : j ≠ parent := Nat.ne_of_lt (h.lt_innermost hopened j hmem)
  rw [childrenAt_addStep hopened (h.innermost_lt hopened), if_neg hne, List.append_nil]
  exact h.lastChild inside i j outside hsplit

theorem forward_addStep {i k : Nat} (hk : k ∈ (d.addStep c).childrenAt i) :
    i < k ∧ k < (d.addStep c).table.length := by
  have hvalid := h.innermost_lt hopened
  rw [childrenAt_addStep hopened hvalid, List.mem_append] at hk
  rw [length_table_addStep]
  rcases hk with hk | hk
  · obtain ⟨hforward, hlt⟩ := h.forward i k hk
    omega
  · split at hk
    · next hi =>
        obtain rfl := List.mem_singleton.mp hk
        omega
    · cases hk

/-- The new draft is a child of the innermost open one, and every old draft of the old one. -/
theorem once_addStep {k : Nat} (hpos : 0 < k) (hlt : k < (d.addStep c).table.length) :
    ∃ owner < k, ((d.addStep c).childrenAt owner).count k = 1 ∧
      ∀ i ≠ owner, k ∉ (d.addStep c).childrenAt i := by
  have hvalid := h.innermost_lt hopened
  have hchildren := childrenAt_addStep hopened hvalid c
  have hfresh : ∀ i, d.table.length ∉ d.childrenAt i := fun i hmem =>
    Nat.lt_irrefl _ (h.forward i _ hmem).2
  rw [length_table_addStep] at hlt
  by_cases hnew : k = d.table.length
  · subst hnew
    refine ⟨parent, hvalid, ?_, fun i hi => ?_⟩
    · rw [hchildren, if_pos rfl, List.count_append, List.count_eq_zero_of_not_mem (hfresh parent),
        List.count_singleton_self]
    · rw [hchildren, if_neg hi, List.append_nil]
      exact hfresh i
  · have hold : ∀ i, k ∉ if i = parent then [d.table.length] else [] := by
      intro i
      split <;> simp [hnew]
    obtain ⟨owner, howner, hcount, hothers⟩ := h.once k hpos (by omega)
    refine ⟨owner, howner, ?_, fun i hi => ?_⟩
    · rw [hchildren, List.count_append, hcount, List.count_eq_zero_of_not_mem (hold owner)]
    · rw [hchildren, List.mem_append, not_or]
      exact ⟨hothers i hi, hold i⟩

omit hopened in
theorem owners_addStep {inside outside : List Nat} {i : Nat} {name owner : String}
    (hsplit : d.opened = inside ++ i :: outside) (hi : (d.addStep c).nameAt i = some name)
    (hrole : Role.ofName name = .branch owner) :
    (∃ j ∈ outside.head?, (d.addStep c).nameAt j = some owner) ∨
      ∀ j ∈ outside, (d.addStep c).nameAt j ≠ some owner := by
  have hname : ∀ j ∈ i :: outside, (d.addStep c).nameAt j = d.nameAt j := fun j hj =>
    h.nameAt_addStep_of_opened c (hsplit ▸ List.mem_append_right inside hj)
  rw [hname i List.mem_cons_self] at hi
  rcases h.owners inside i outside name owner hsplit hi hrole with ⟨j, hj, howner⟩ | hnone
  · refine .inl ⟨j, hj, ?_⟩
    rwa [hname j (List.mem_cons_of_mem i (List.mem_of_mem_head? hj))]
  · refine .inr fun j hj => ?_
    rw [hname j (List.mem_cons_of_mem i hj)]
    exact hnone j hj

end

theorem addStep (h : d.Threaded) (c : Call) : (d.addStep c).Threaded := by
  obtain ⟨parent, around, hopened⟩ := h.exists_opened
  refine ⟨h.root, h.increasing, fun i hi => ?_,
    fun inside i j outside hsplit => h.lastChild_addStep hopened c hsplit, fun i hi => ?_,
    fun i k hk => h.forward_addStep hopened c hk,
    fun k hpos hlt => h.once_addStep hopened c hpos hlt,
    fun inside i outside name owner hsplit hi hrole => h.owners_addStep c hsplit hi hrole⟩
  · rw [length_table_addStep]
    exact Nat.lt_succ_of_lt (h.valid i hi)
  · rw [h.nameAt_addStep_of_opened c (List.dropLast_subset _ hi)]
    exact h.kinds i hi

theorem openStep (h : d.Threaded) {c : Call}
    (hkind : c.role = .block ∨ ∃ owner, c.role = .branch owner)
    (howner : ∀ owner, c.role = .branch owner →
      (∃ j ∈ d.opened.head?, d.nameAt j = some owner) ∨ ∀ j ∈ d.opened, d.nameAt j ≠ some owner) :
    (d.openStep c).Threaded := by
  obtain ⟨parent, around, hopened⟩ := h.exists_opened
  have hvalid : parent < d.table.length := h.innermost_lt hopened
  have hadded := h.addStep c
  have hkept : (d.addStep c).opened = d.opened := rfl
  have hnew : (d.addStep c).nameAt d.table.length = some c.name := by
    rw [nameAt_addStep, if_pos rfl]
  refine ⟨?_, ?_, fun i hi => ?_, fun inside i j outside hsplit => ?_, fun i hi => ?_,
    hadded.forward, hadded.once, fun inside i outside name owner hsplit hi hrole => ?_⟩
  · have hroot := h.root
    rw [hopened] at hroot
    rw [Drafts.openStep, hopened]
    exact hroot
  · exact List.pairwise_cons.mpr ⟨h.valid, h.increasing⟩
  · rcases List.mem_cons.mp hi with rfl | hi
    · exact (length_table_addStep d c).symm ▸ Nat.lt_succ_self _
    · exact hadded.valid i hi
  · cases inside with
    | nil =>
        obtain ⟨rfl, htail⟩ := List.cons_eq_cons.mp hsplit
        rw [hopened] at htail
        obtain ⟨rfl, -⟩ := List.cons_eq_cons.mp htail
        have hchildren := childrenAt_addStep hopened hvalid c parent
        rw [if_pos rfl] at hchildren
        exact hchildren ▸ List.getLast?_concat
    | cons first inside =>
        exact hadded.lastChild inside i j outside (List.cons_eq_cons.mp hsplit).2
  · have hlast : (d.openStep c).opened.dropLast = d.table.length :: d.opened.dropLast := by
      rw [Drafts.openStep, hopened]
      rfl
    rw [hlast] at hi
    rcases List.mem_cons.mp hi with rfl | hi
    · exact ⟨c.name, hnew, hkind⟩
    · exact hadded.kinds i hi
  · cases inside with
    | nil =>
        obtain ⟨rfl, rfl⟩ := List.cons_eq_cons.mp hsplit
        obtain rfl : c.name = name := Option.some.inj (hnew.symm.trans hi)
        have hname : ∀ j ∈ d.opened, (d.openStep c).nameAt j = d.nameAt j := fun j hj =>
          h.nameAt_addStep_of_opened c hj
        rcases howner owner hrole with ⟨j, hj, hjowner⟩ | hnone
        · exact .inl ⟨j, hj, (hname j (List.mem_of_mem_head? hj)).trans hjowner⟩
        · exact .inr fun j hj hjowner => hnone j hj ((hname j hj).symm.trans hjowner)
    | cons first inside =>
        exact hadded.owners inside i outside name owner (List.cons_eq_cons.mp hsplit).2 hi hrole

theorem backTo (h : d.Threaded) (owner : String) : (d.backTo owner).Threaded := by
  rcases backTo_cases d owner with ⟨rest, hsuffix, ⟨j, hj, -⟩, heq⟩ | ⟨-, heq⟩
  · rw [heq]
    refine h.suffix hsuffix ?_
    rintro rfl
    cases hj
  · rwa [heq]

theorem close (h : d.Threaded) : d.close.Threaded := by
  unfold Drafts.close
  split
  · next closed outer rest hopened =>
      split
      · next hclose =>
          refine h.suffix ⟨[closed, outer], hopened.symm⟩ ?_
          rintro rfl
          simp at hclose
      · exact h.suffix ⟨[closed], hopened.symm⟩ (List.cons_ne_nil _ _)
  · exact h

theorem call (h : d.Threaded) (c : Call) : (d.call c).Threaded := by
  unfold Drafts.call
  cases hrole : c.role with
  | leaf => exact h.addStep c
  | block =>
      exact h.openStep (.inl hrole) fun owner howner => nomatch hrole.symm.trans howner
  | branch owner =>
      refine (h.backTo owner).openStep (.inr ⟨owner, hrole⟩) fun owner' howner' => ?_
      obtain rfl : owner = owner' := Role.branch.inj (hrole.symm.trans howner')
      rcases backTo_cases d owner with ⟨rest, -, hhead, heq⟩ | ⟨hnone, heq⟩
      · rw [heq]
        exact .inl hhead
      · rw [heq]
        exact .inr hnone
  | close => exact h.close
  | backTo owner => exact h.backTo owner
  | routeId => exact h
  | other => exact h

theorem foldl_call (h : d.Threaded) (calls : List Call) :
    (calls.foldl Drafts.call d).Threaded := by
  induction calls generalizing d with
  | nil => exact h
  | cons c calls ih => exact ih (h.call c)

end Threaded

/-- Closing a branch whose owner is open closes these two, unless the owner is the route itself,
which stays open. -/
theorem Threaded.close_of_branch (h : d.Threaded) {closed : Nat} {around : List Nat}
    (hopened : d.opened = closed :: around) {name owner : String}
    (hname : d.nameAt closed = some name) (hrole : Role.ofName name = .branch owner)
    (howner : ∃ j ∈ around, d.nameAt j = some owner) :
    ∃ j rest, around = j :: rest ∧ d.nameAt j = some owner ∧
      d.close = { d with opened := if rest = [] then [j] else rest } := by
  obtain ⟨k, hk, hkowner⟩ := howner
  rcases h.owners [] closed around name owner hopened hname hrole with ⟨j, hj, hjowner⟩ | hnone
  · obtain ⟨rest, rfl⟩ := List.head?_eq_some_iff.mp hj
    refine ⟨j, rest, rfl, hjowner, ?_⟩
    rw [close_eq hopened hname]
    by_cases hrest : rest = []
    · simp [hrest]
    · simp [hrest, isBranch_of_ofName hrole]
  · exact absurd hkowner (hnone k hk)

end

end Drafts

/-! ### The drafts of a chain -/

namespace Chain

/-- The open blocks after the first `n` calls on the start of a chain. -/
def replayAfter (c : Chain) (n : Nat) : Replay :=
  (c.rest.take n).foldl Replay.call (.start c.start)

/-- The drafts after the first `n` calls on the start of a chain. -/
def draftsAfter (c : Chain) (n : Nat) : Drafts :=
  (c.rest.take n).foldl Drafts.call (.start c.start)

theorem drafts_replayAfter (c : Chain) (n : Nat) : (c.replayAfter n).drafts = c.draftsAfter n := by
  rw [replayAfter, Replay.drafts_foldl_call, Replay.drafts_start]
  rfl

/-- The first draft has the name of the call that starts the chain. -/
theorem nameAt_draftsAfter (c : Chain) (n : Nat) :
    (c.draftsAfter n).nameAt 0 = some c.start.name := by
  have hlabels := labels_steps ⟨c.start, c.rest.take n⟩
  rw [Drafts.nameAt, ← drafts_replayAfter, Replay.table_drafts]
  have hsteps : (c.replayAfter n).toStep = steps ⟨c.start, c.rest.take n⟩ := rfl
  rw [hsteps]
  revert hlabels
  cases steps ⟨c.start, c.rest.take n⟩ with
  | node name line children =>
      intro hlabels
      exact congrArg some (Prod.mk.inj (List.cons_eq_cons.mp hlabels).1).1

/-- The drafts of a chain after any number of its calls.  They are those of the open blocks, and
the open ones are the rightmost path of the tree (`Drafts.Threaded`).  A closing call on a branch
whose owner is open closes these two; the route itself stays open, but is no owner if it starts
with `from`.  A closing call with only the route open changes nothing, and neither does a call
back to an owner that is not open.  Assembling the drafts comes to an end, meets no number that
the table lacks, and gives the tree. -/
theorem threaded_drafts (c : Chain) (n : Nat) :
    let d := c.draftsAfter n
    d = (c.replayAfter n).drafts ∧ d.Threaded ∧
      (∀ call : Call, call.role = .close →
        (∀ closed around name owner, d.opened = closed :: around →
          d.nameAt closed = some name → Role.ofName name = .branch owner →
          (∃ j ∈ around, d.nameAt j = some owner) →
            ∃ j rest, around = j :: rest ∧ d.nameAt j = some owner ∧
              d.call call = { d with opened := if rest = [] then [j] else rest } ∧
              (c.start.name = startName → rest ≠ [])) ∧
        (d.opened = [0] → d.call call = d)) ∧
      (∀ (call : Call) (owner : String), call.role = .backTo owner →
        (∀ i ∈ d.opened, d.nameAt i ≠ some owner) → d.call call = d) ∧
      ∀ missing : Step, d.assemble missing d.table.length 0 = some (c.replayAfter n).toStep := by
  have hthreaded : (c.draftsAfter n).Threaded := (Drafts.Threaded.start c.start).foldl_call _
  refine ⟨(drafts_replayAfter c n).symm, hthreaded, fun call hclose => ⟨?_, fun hroot => ?_⟩,
    fun call owner hback hnone => ?_, fun missing => ?_⟩
  · intro closed around name owner hopened hname hrole howner
    obtain ⟨j, rest, rfl, hjowner, hclosed⟩ :=
      hthreaded.close_of_branch hopened hname hrole howner
    refine ⟨j, rest, rfl, hjowner, ?_, fun hstart hrest => ?_⟩
    · rw [Drafts.call, hclose]
      exact hclosed
    · -- the owner would be the route itself, but `from` is the name of no block
      subst hrest
      have hzero := hthreaded.root
      rw [hopened] at hzero
      obtain rfl : j = 0 := Option.some.inj hzero
      rw [nameAt_draftsAfter, hstart] at hjowner
      obtain rfl : startName = owner := Option.some.inj hjowner
      exact absurd (Role.ofName_owner hrole) (by decide)
  · rw [Drafts.call, hclose]
    dsimp only
    rw [Drafts.close, hroot]
  · rw [Drafts.call, hback]
    rcases Drafts.backTo_cases (c.draftsAfter n) owner with ⟨rest, hsuffix, ⟨j, hj, hjowner⟩, -⟩ |
      ⟨-, heq⟩
    · exact absurd hjowner (hnone j (hsuffix.subset (List.mem_of_mem_head? hj)))
    · exact heq
  · rw [← drafts_replayAfter]
    exact (c.replayAfter n).assemble_drafts missing

end Chain

end RouteCoverage
