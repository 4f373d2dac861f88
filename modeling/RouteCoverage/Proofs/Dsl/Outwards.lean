import Mathlib.Data.List.Forall2
import Mathlib.Data.List.Induction
import RouteCoverage.Proofs.Coverage.Greedy
import RouteCoverage.Proofs.Dsl.Order
import RouteCoverage.Proofs.Dsl.Starts
import RouteCoverage.Proofs.Source.Objects

/-!
# Chains outwards

A chain goes from its start to the invocation whose object it is, from there to the next one, and
so on until an invocation is no object (`LeadsOut`).  There is one such way from every start, and
two starts have nothing in common on their ways, wherever the one stands in the other's arguments
(`LeadsOut.eq_of_mem`).  What is nested outwards from a start is read back in order
(`inNode_nest`), and where names stand behind objects, the lines along a chain never decrease
(`chains_outwards`).
-/

namespace RouteCoverage

open Source (Node Position)

/-- A call is the one that an invocation makes: it has the text and the line of its name, and the
literal that its arguments begin with. -/
structure Call.IsOf (n : Node) (c : Call) : Prop where
  name : ∀ name ∈ n.child? .name, c.name = name.text ∧ c.line = name.line
  literal : ∀ text, c.literal = some text ↔ ∃ arguments ∈ n.child? .arguments,
    ∃ first ∈ arguments.children.head?, first.kind = .stringLiteral ∧
      Call.unquoted first.text = text

theorem Call.isOf_ofNode (n : Node) : (Call.ofNode n).IsOf n where
  name := by
    intro name hname
    unfold Call.ofNode
    rw [Option.mem_def.mp hname]
    exact ⟨rfl, rfl⟩
  literal := by
    intro text
    have hliteral : (Call.ofNode n).literal = literal? n := by
      unfold Call.ofNode
      split <;> rfl
    rw [hliteral, literal?]
    simp only [Option.bind_eq_bind, Option.bind_eq_some_iff, Option.ite_none_right_eq_some,
      Option.some.injEq, Option.mem_def]

namespace Chain

/-! ### The way outwards -/

/-- The node at `q` is the object of the invocation at `p`. -/
def IsObjectOf (root : Node) (q p : Position) : Prop :=
  ∃ n i, root.at? p = some n ∧ n.kind = .methodInvocation ∧
    n.children.findIdx? (·.part = some .object) = some i ∧ q = p ++ [i]

/-- The way outwards from a position: each position is that of the object of the next one, and the
last one is that of no object. -/
inductive LeadsOut (root : Node) : Position → List Position → Prop
  | stop {p : Position} (h : ∀ q, ¬ IsObjectOf root p q) : LeadsOut root p [p]
  | step {p q : Position} {way : List Position} (h : IsObjectOf root p q)
      (rest : LeadsOut root q way) : LeadsOut root p (p :: way)

section

variable {root n m : Node} {p q p' : Position} {way way' : List Position}

/-- The object of an invocation is the child that plays this part. -/
theorem IsObjectOf.exists_object (h : IsObjectOf root q p) :
    ∃ n object, root.at? p = some n ∧ n.kind = .methodInvocation ∧
      n.child? .object = some object ∧ root.at? q = some object := by
  obtain ⟨n, i, hn, hkind, hi, rfl⟩ := h
  obtain ⟨hlt, -, -⟩ := List.findIdx?_eq_some_iff_getElem.mp hi
  have hchild : n.children[i]? = some n.children[i] := List.getElem?_eq_getElem hlt
  refine ⟨n, n.children[i], hn, hkind, ?_, ?_⟩
  · rw [Node.child?, List.find?_eq_bind_findIdx?_getElem?, hi]
    exact hchild
  · rw [Node.at?_concat, hn]
    exact hchild

theorem IsObjectOf.left_unique (h : IsObjectOf root q p) (h' : IsObjectOf root p' p) : q = p' := by
  obtain ⟨n, i, hn, -, hi, rfl⟩ := h
  obtain ⟨n', i', hn', -, hi', rfl⟩ := h'
  obtain rfl : n = n' := Option.some.inj (hn.symm.trans hn')
  obtain rfl : i = i' := Option.some.inj (hi.symm.trans hi')
  rfl

theorem IsObjectOf.right_unique (h : IsObjectOf root q p) (h' : IsObjectOf root q p') :
    p = p' := by
  obtain ⟨-, i, -, -, -, rfl⟩ := h
  obtain ⟨-, i', -, -, -, heq⟩ := h'
  exact (List.append_inj' heq rfl).1

theorem LeadsOut.unique (h : LeadsOut root p way) (h' : LeadsOut root p way') : way = way' := by
  induction h generalizing way' with
  | stop hstop =>
      cases h' with
      | stop => rfl
      | step hobject => exact absurd hobject (hstop _)
  | step hobject _ ih =>
      cases h' with
      | stop hstop => exact absurd hobject (hstop _)
      | step hobject' hrest' =>
          obtain rfl := hobject.right_unique hobject'
          rw [ih hrest']

theorem exists_leadsOut (root : Node) (p : Position) : ∃ way, LeadsOut root p way := by
  induction p using List.reverseRecOn with
  | nil => exact ⟨_, .stop fun q ⟨_, _, _, _, _, heq⟩ => by simp at heq⟩
  | append_singleton p i ih =>
      by_cases hobject : IsObjectOf root (p ++ [i]) p
      · obtain ⟨way, hway⟩ := ih
        exact ⟨_, .step hobject hway⟩
      · refine ⟨_, .stop fun q hq => hobject ?_⟩
        obtain ⟨n, j, hn, hkind, hj, heq⟩ := hq
        obtain ⟨rfl, hsame⟩ := List.append_inj' heq rfl
        obtain rfl := (List.cons.inj hsame).1
        exact ⟨n, i, hn, hkind, hj, rfl⟩

/-! ### Starts that share an invocation -/

theorem LeadsOut.mem_cases (h : LeadsOut root p way) (hq : q ∈ way) :
    q = p ∨ ∃ object ∈ way, IsObjectOf root object q := by
  induction h with
  | stop => exact .inl (List.mem_singleton.mp hq)
  | @step p next way hobject rest ih =>
      rcases List.mem_cons.mp hq with rfl | hq
      · exact .inl rfl
      · rcases ih hq with rfl | ⟨object, hmem, hof⟩
        · exact .inr ⟨p, List.mem_cons_self, hobject⟩
        · exact .inr ⟨object, List.mem_cons_of_mem p hmem, hof⟩

/-- Going back inwards from a common position, a way that begins without an object has all that
the other one has. -/
theorem LeadsOut.mem_of_mem (h : LeadsOut root p way) (h' : LeadsOut root p' way')
    (hstart : ∀ object, ¬ IsObjectOf root object p') (hq : q ∈ way) (hq' : q ∈ way') :
    p ∈ way' := by
  induction h with
  | stop => exact List.mem_singleton.mp hq ▸ hq'
  | @step p next way hobject rest ih =>
      rcases List.mem_cons.mp hq with rfl | hq
      · exact hq'
      · rcases h'.mem_cases (ih hq) with rfl | ⟨object, hmem, hof⟩
        · exact absurd hobject (hstart p)
        · rwa [hobject.left_unique hof]

/-- Two ways that begin without an object and meet begin at one position. -/
theorem LeadsOut.eq_of_mem (h : LeadsOut root p way) (h' : LeadsOut root p' way')
    (hp : ∀ object, ¬ IsObjectOf root object p) (hp' : ∀ object, ¬ IsObjectOf root object p')
    (hq : q ∈ way) (hq' : q ∈ way') : p = p' := by
  rcases h'.mem_cases (h.mem_of_mem h' hp' hq hq') with heq | ⟨object, -, hof⟩
  · exact heq
  · exact absurd hof (hp object)

theorem not_isObjectOf_start (h : startsAt root p) : ∀ object, ¬ IsObjectOf root object p := by
  intro object hof
  obtain ⟨n, child, hn, -, hchild, -⟩ := hof.exists_object
  rw [startsAt, hn, Option.any_some, isStart, Bool.and_eq_true, Bool.and_eq_true, hchild] at h
  exact Bool.noConfusion h.1.2

/-! ### The calls of a chain -/

theorem callsOn_of_isObjectOf (h : IsObjectOf root p q) (hm : root.at? q = some m) :
    callsOn root p = Call.ofNode m :: callsOn root q := by
  obtain ⟨n, i, hn, hkind, hi, rfl⟩ := h
  obtain rfl : n = m := Option.some.inj (hn.symm.trans hm)
  obtain ⟨hlt, hpart, -⟩ := List.findIdx?_eq_some_iff_getElem.mp hi
  rw [callsOn_concat hn (List.getElem?_eq_getElem hlt), if_pos (of_decide_eq_true hpart),
    if_pos hkind]

theorem findIdx?_of_countP_le {α : Type} {P : α → Bool} {l : List α} {i : Nat} {a : α}
    (hcount : l.countP P ≤ 1) (ha : l[i]? = some a) (hP : P a = true) : l.findIdx? P = some i := by
  induction l generalizing i with
  | nil => cases ha
  | cons b l ih =>
      rw [List.findIdx?_cons]
      by_cases hb : P b = true
      · rw [List.countP_cons_of_pos hb] at hcount
        have hnone : l.countP P = 0 := by omega
        cases i with
        | zero => rw [if_pos hb]
        | succ i =>
            have hmem : a ∈ l := List.mem_of_getElem? ha
            exact absurd hP (List.countP_eq_zero.mp hnone a hmem)
      · rw [List.countP_cons_of_neg hb] at hcount
        cases i with
        | zero =>
            obtain rfl := Option.some.inj ha
            exact absurd hP hb
        | succ i => rw [if_neg hb, ih hcount ha, Option.map_some]

theorem callsOn_of_not_isObjectOf (hroot : root.OneObject) (hn : root.at? p = some n)
    (h : ∀ q, ¬ IsObjectOf root p q) : callsOn root p = [] := by
  rcases List.eq_nil_or_concat p with rfl | ⟨q, i, rfl⟩
  · rfl
  · rw [List.concat_eq_append] at hn h ⊢
    have hconcat := hn
    rw [Node.at?_concat] at hconcat
    obtain ⟨parent, hparent, hchild⟩ := Option.bind_eq_some_iff.mp hconcat
    rw [callsOn_concat hparent hchild]
    by_cases hpart : n.part = some .object
    · rw [if_pos hpart]
      refine if_neg fun hkind => h q ⟨parent, i, hparent, hkind, ?_, rfl⟩
      exact findIdx?_of_countP_le (hroot parent (Node.mem_preorder_of_at? hparent)) hchild
        (decide_eq_true hpart)
    · exact if_neg hpart

/-- The calls of a chain are those of the invocations on the way outwards from its start. -/
theorem forall₂_calls (hroot : root.OneObject) (h : LeadsOut root p way)
    (hn : root.at? p = some n) (hkind : n.kind = .methodInvocation) :
    List.Forall₂
      (fun q c => ∃ n, root.at? q = some n ∧ n.kind = .methodInvocation ∧ c = Call.ofNode n)
      way (Call.ofNode n :: callsOn root p) := by
  induction h generalizing n with
  | stop hstop =>
      rw [callsOn_of_not_isObjectOf hroot hn hstop]
      exact .cons ⟨n, hn, hkind, rfl⟩ .nil
  | step hobject _ ih =>
      obtain ⟨m, -, hm, hinvocation, -, -⟩ := hobject.exists_object
      rw [callsOn_of_isObjectOf hobject hm]
      exact .cons ⟨n, hn, hkind, rfl⟩ (ih hm hinvocation)

/-! ### Lines -/

/-- Wherever an invocation has an object, it has a name, and nothing in the object begins on a later
line than the name. -/
def NamesBehindObjects (root : Node) : Prop :=
  ∀ n ∈ root.preorder, n.kind = .methodInvocation → ∀ object ∈ n.child? .object,
    ∃ name ∈ n.child? .name, ∀ m ∈ object.preorder, m.line ≤ name.line

instance : DecidablePred NamesBehindObjects := fun root =>
  inferInstanceAs (Decidable (∀ n ∈ root.preorder, n.kind = .methodInvocation →
    ∀ object ∈ n.child? .object, ∃ name ∈ n.child? .name,
      ∀ m ∈ object.preorder, m.line ≤ name.line))

/-- The line of a call is that of a node of the invocation. -/
theorem exists_line_ofNode (n : Node) : ∃ m ∈ n.preorder, (Call.ofNode n).line = m.line := by
  unfold Call.ofNode
  cases hname : n.child? .name with
  | none => exact ⟨n, n.self_mem_preorder, rfl⟩
  | some name =>
      have hmem : name ∈ n.children := List.mem_of_find?_eq_some hname
      exact ⟨name, Node.preorder_subset hmem name.self_mem_preorder, rfl⟩

theorem line_le_of_isObjectOf (hnames : NamesBehindObjects root) (h : IsObjectOf root p q)
    (hn : root.at? p = some n) (hm : root.at? q = some m) :
    (Call.ofNode n).line ≤ (Call.ofNode m).line := by
  obtain ⟨m', object, hm', hkind, hobject, hp⟩ := h.exists_object
  obtain rfl : m = m' := Option.some.inj (hm.symm.trans hm')
  obtain rfl : n = object := Option.some.inj (hn.symm.trans hp)
  obtain ⟨name, hname, hlines⟩ := hnames m (Node.mem_preorder_of_at? hm) hkind n hobject
  obtain ⟨inner, hinner, hline⟩ := exists_line_ofNode n
  have hcall : (Call.ofNode m).line = name.line := by
    unfold Call.ofNode
    rw [Option.mem_def.mp hname]
  rw [hline, hcall]
  exact hlines inner hinner

/-- Where names stand behind objects, the lines of a chain never decrease. -/
theorem pairwise_line_calls (hroot : root.OneObject) (hnames : NamesBehindObjects root)
    (h : LeadsOut root p way) (hn : root.at? p = some n) :
    ((Call.ofNode n :: callsOn root p).map Call.line).Pairwise (· ≤ ·) := by
  induction h generalizing n with
  | stop hstop =>
      rw [callsOn_of_not_isObjectOf hroot hn hstop]
      exact List.pairwise_singleton _ _
  | step hobject _ ih =>
      obtain ⟨m, -, hm, -, -, -⟩ := hobject.exists_object
      have hle := line_le_of_isObjectOf hnames hobject hn hm
      have hrest := ih hm
      rw [callsOn_of_isObjectOf hobject hm, List.map_cons, List.map_cons, List.pairwise_cons]
      rw [List.map_cons] at hrest
      refine ⟨fun line hline => ?_, hrest⟩
      rcases List.mem_cons.mp hline with rfl | hline
      · exact hle
      · have hnext := (List.pairwise_cons.mp hrest).1 line hline
        omega

theorem line_aggregate_sublist (c : Chain) (trace : Trace) :
    ((aggregate c.steps trace).map Entry.line).Sublist (c.calls.map Call.line) := by
  have hlines : (aggregate c.steps trace).map Entry.line =
      c.start.line :: (c.rest.filter (·.role.isStep)).map Call.line := by
    calc (aggregate c.steps trace).map Entry.line
        = (((aggregate c.steps trace).map Entry.row).map Row.label).map Prod.snd := by
          rw [List.map_map, List.map_map]
          rfl
      _ = c.steps.labels.map Prod.snd := by
          rw [map_row_aggregate, Step.map_label_rows]
      _ = c.start.line :: (c.rest.filter (·.role.isStep)).map Call.line := by
          rw [labels_steps, List.map_cons, List.map_map]
          rfl
  rw [hlines]
  exact (List.filter_sublist.map Call.line).cons_cons c.start.line

end

/-! ### Nesting -/

/-- An invocation without its object: its name, the line of that, and what stands between its
parentheses. -/
structure Invoked where
  name : String
  line : Nat
  arguments : List Node

namespace Invoked

/-- The invocation as a node that has the given objects. -/
def node (s : Invoked) (objects : List Node) : Node :=
  .node .methodInvocation none s.line "" (objects ++
    [.node .identifier (some .name) s.line s.name [],
      .node .argumentList (some .arguments) s.line "" s.arguments])

/-- The invocation made on a node. -/
def on (n : Node) (s : Invoked) : Node := s.node [n.withPart .object]

/-- The call that the invocation makes, on whatever object. -/
def call (s : Invoked) : Call := Call.ofNode (s.node [])

/-- The chains that start in the arguments of the invocation. -/
def within (s : Invoked) : List Chain := s.arguments.flatMap (inNode [])

/-- The invocation that makes a call: the literal is its only argument. -/
def ofCall (c : Call) : Invoked :=
  { name := c.name
    line := c.line
    arguments :=
      (c.literal.map fun text => .leaf .stringLiteral c.line ("\"" ++ text ++ "\"")).toList }

end Invoked

/-- The expression in which invocations are made outwards from a first one. -/
def nest (first : Invoked) (rest : List Invoked) : Node := rest.foldl Invoked.on (first.node [])

section

variable {first s : Invoked} {outward : List Call} {n : Node}

theorem ofNode_on (n : Node) (s : Invoked) : Call.ofNode (Invoked.on n s) = s.call := by
  obtain ⟨kind, part, line, text, children⟩ := n
  rfl

theorem inNode_withPart (part : Source.Part) (n : Node) (outward : List Call) :
    inNode outward (n.withPart part) = inNode outward n := by
  obtain ⟨kind, own, line, text, children⟩ := n
  rfl

/-- The chains in the name and the arguments of an invocation. -/
theorem inChildren_parts (s : Invoked) (outward : List Call) :
    inChildren outward [.node .identifier (some .name) s.line s.name [],
      .node .argumentList (some .arguments) s.line "" s.arguments] = s.within := by
  have harguments : inChildren [] s.arguments = s.within := by
    rw [inChildren_eq, Invoked.within]
    refine List.flatMap_congr fun n _ => ?_
    rw [ite_self]
  simp [inChildren, inNode, isStart, Node.kind, harguments]

theorem inNode_on (n : Node) (s : Invoked) (outward : List Call) :
    inNode outward (Invoked.on n s) = inNode (s.call :: outward) n ++ s.within := by
  have hstart : isStart (Invoked.on n s) = false := by
    obtain ⟨kind, part, line, text, children⟩ := n
    rfl
  have hpart : (n.withPart .object).part = some .object := by
    obtain ⟨kind, part, line, text, children⟩ := n
    rfl
  have hcall : Call.ofNode (Invoked.on n s) = s.call := ofNode_on n s
  unfold Invoked.on Invoked.node at hstart hcall ⊢
  rw [inNode, hstart, if_neg Bool.false_ne_true, if_pos rfl, hcall, List.nil_append,
    List.singleton_append, inChildren, if_pos hpart, inNode_withPart, inChildren_parts]

theorem inNode_foldl_on (rest : List Invoked) :
    inNode outward (rest.foldl Invoked.on n) =
      inNode (rest.map Invoked.call ++ outward) n ++ rest.flatMap Invoked.within := by
  induction rest generalizing n with
  | nil => rw [List.foldl_nil, List.map_nil, List.nil_append, List.flatMap_nil, List.append_nil]
  | cons s rest ih =>
      rw [List.foldl_cons, ih, inNode_on, List.map_cons, List.flatMap_cons, List.append_assoc,
        List.cons_append]

/-- The chains in an expression that nests invocations outwards from a start: that of the start,
which is handed all calls in their order, and those in the arguments of the invocations. -/
theorem inNode_nest (hstart : first.name = startName) (rest : List Invoked) :
    inNode outward (nest first rest) =
      ⟨first.call, rest.map Invoked.call ++ outward⟩ :: (first :: rest).flatMap Invoked.within := by
  have hfirst : isStart (first.node []) = true := by
    unfold isStart
    simp [Invoked.node, Node.kind, Node.child?, Node.children, Node.part, Node.text, hstart]
  have halone (outward : List Call) :
      inNode outward (first.node []) = ⟨first.call, outward⟩ :: first.within := by
    unfold Invoked.call
    unfold Invoked.node at hfirst ⊢
    rw [inNode, hfirst, if_pos rfl, List.nil_append, inChildren_parts, List.singleton_append]
  rw [nest, inNode_foldl_on, halone, List.cons_append, List.flatMap_cons]

theorem unquoted_quoted (text : String) :
    Call.unquoted ("\"" ++ text ++ "\"") = Call.unquoted text := by
  have htext : ("\"" ++ text ++ "\"").toList = '"' :: (text.toList ++ ['"']) := by
    rw [String.toList_append, String.toList_append]
    rfl
  unfold Call.unquoted
  rw [htext, List.dropWhile_cons_of_pos (by decide), List.dropWhile_append]
  split
  · next hempty =>
      rw [List.isEmpty_iff.mp hempty]
      rfl
  · dsimp only
    rw [List.reverse_append, List.reverse_singleton, List.singleton_append,
      List.dropWhile_cons_of_pos (by decide)]

theorem call_ofCall {c : Call} (h : ∀ text ∈ c.literal, Call.unquoted text = text) :
    (Invoked.ofCall c).call = c := by
  obtain ⟨name, line, literal⟩ := c
  cases literal with
  | none => rfl
  | some text =>
      show (⟨name, line, some (Call.unquoted ("\"" ++ text ++ "\""))⟩ : Call) = _
      rw [unquoted_quoted, h text rfl]

theorem within_ofCall (c : Call) : (Invoked.ofCall c).within = [] := by
  obtain ⟨name, line, literal⟩ := c
  cases literal with
  | none => rfl
  | some text => rfl

end

/-! ### Chains and their invocations -/

/-- The chains of a tree.  In every tree that a source text is read into, no node has two objects.
In every such tree, the chains found are those at the starts, in the whole tree and in the bodies of
builder methods.  From a start one way leads outwards, from the object to the invocation as long as
there is one, and the calls of the chain are those of the invocations on this way.  The ways from
two starts have nothing in common.  If names stand behind objects, the lines of a chain never
decrease, and neither do those of its report.  In an expression that nests invocations outwards
from a start, the chain of the start has their calls in order, and all other chains start in the
arguments; so the expression for a list of calls gives the list back, if their literals are such as
are read, without quotes at the ends. -/
theorem chains_outwards :
    (∀ (source : String) (root : Node), Source.parse source = .ok root → root.OneObject) ∧
    (∀ root : Node, root.OneObject →
      ((inNode [] root).map some = (root.positions.filter (startsAt root)).map (at? root) ∧
        (ofTree root).map some = (starts root).map (at? root)) ∧
      (∀ p, startsAt root p → ∃ c way, at? root p = some c ∧ LeadsOut root p way ∧
        (∀ way', LeadsOut root p way' → way' = way) ∧
        List.Forall₂
          (fun q call => ∃ n, root.at? q = some n ∧ n.kind = .methodInvocation ∧ call.IsOf n)
          way c.calls) ∧
      (∀ p p' way way', startsAt root p → startsAt root p' → p ≠ p' →
        LeadsOut root p way → LeadsOut root p' way' → way.Disjoint way') ∧
      (NamesBehindObjects root → ∀ p c, startsAt root p → at? root p = some c →
        (c.calls.map Call.line).Pairwise (· ≤ ·) ∧
          ∀ trace, ((aggregate c.steps trace).map Entry.line).Pairwise (· ≤ ·))) ∧
    (∀ (first : Invoked) (rest : List Invoked) (outward : List Call), first.name = startName →
      inNode outward (nest first rest) =
        ⟨first.call, rest.map Invoked.call ++ outward⟩ ::
          (first :: rest).flatMap Invoked.within) ∧
    ∀ c : Chain, c.start.name = startName →
      (∀ call ∈ c.calls, ∀ text ∈ call.literal, Call.unquoted text = text) →
      inNode [] (nest (.ofCall c.start) (c.rest.map .ofCall)) = [c] := by
  refine ⟨fun source root => Source.oneObject_of_parse, fun root hroot =>
    ⟨⟨?_, map_ofTree root⟩, fun p hp => ?_, fun p p' way way' hp hp' hne h h' => ?_,
      fun hnames p c hp hc => ?_⟩, fun first rest outward hstart => inNode_nest hstart rest,
    fun c hstart hliterals => ?_⟩
  · have hstarts : startsIn root [] = root.positions.filter (startsAt root) := by
      unfold startsIn
      simp
    rw [← hstarts, map_startsIn (Node.at?_nil root)]
    rfl
  · obtain ⟨n, hn, hstart⟩ := (Option.any_eq_true ..).mp hp
    have hkind : n.kind = .methodInvocation := by
      rw [isStart, Bool.and_eq_true, Bool.and_eq_true] at hstart
      exact of_decide_eq_true hstart.1.1
    obtain ⟨way, hway⟩ := exists_leadsOut root p
    refine ⟨⟨Call.ofNode n, callsOn root p⟩, way, by rw [at?, hn, Option.map_some], hway,
      fun way' hway' => hway'.unique hway, (forall₂_calls hroot hway hn hkind).imp ?_⟩
    rintro q call ⟨m, hm, hinvocation, rfl⟩
    exact ⟨m, hm, hinvocation, Call.isOf_ofNode m⟩
  · intro q hq hq'
    exact hne (h.eq_of_mem h' (not_isObjectOf_start hp) (not_isObjectOf_start hp') hq hq')
  · obtain ⟨n, hn, rfl⟩ := Option.map_eq_some_iff.mp hc
    obtain ⟨way, hway⟩ := exists_leadsOut root p
    have hlines := pairwise_line_calls hroot hnames hway hn
    exact ⟨hlines, fun trace => hlines.sublist (line_aggregate_sublist _ trace)⟩
  · have hcalls : ∀ call ∈ c.calls, (Invoked.ofCall call).call = call :=
      fun call hcall => call_ofCall (hliterals call hcall)
    have hrest : (c.rest.map Invoked.ofCall).map Invoked.call = c.rest := by
      rw [List.map_map]
      exact (List.map_congr_left fun call hcall =>
        hcalls call (List.mem_cons_of_mem _ hcall)).trans (List.map_id _)
    have hwithin : (Invoked.ofCall c.start :: c.rest.map Invoked.ofCall).flatMap Invoked.within =
        [] := by
      rw [← List.map_cons, List.flatMap_map]
      simp only [within_ofCall, List.flatMap_eq_nil_iff, implies_true]
    rw [inNode_nest hstart, hcalls c.start List.mem_cons_self, hrest, hwithin, List.append_nil]

/-- A route in an argument of another one, which goes on in the next line. -/
def routeInArgument : String :=
  "void configure() \x7b\n  from(f(from().to()))\n    .to(\"a\"); \x7d"

/-- The two routes have no invocation in common, and the outer one goes down the lines. -/
theorem chains_routeInArgument :
    ∃ root p p' way way', Source.parse routeInArgument = .ok root ∧ p ≠ p' ∧
      LeadsOut root p way ∧ LeadsOut root p' way' ∧ way.Disjoint way' ∧
      (∀ c, at? root p = some c → (c.calls.map Call.line).Pairwise (· ≤ ·)) ∧
      inNode [] (nest (.ofCall ⟨"from", 2, none⟩) [.ofCall ⟨"to", 3, some "a"⟩]) =
        [⟨⟨"from", 2, none⟩, [⟨"to", 3, some "a"⟩]⟩] := by
  have hparsed : (Source.parse routeInArgument).toOption.any (fun root =>
      startsAt root [0, 3, 0, 0, 0] && startsAt root [0, 3, 0, 0, 0, 1, 0, 1, 0, 0] &&
        decide (NamesBehindObjects root)) = true := by
    decide +kernel
  cases hroot : Source.parse routeInArgument with
  | error line =>
      rw [hroot] at hparsed
      cases hparsed
  | ok root =>
      rw [hroot, Except.toOption, Option.any_some, Bool.and_eq_true, Bool.and_eq_true] at hparsed
      obtain ⟨⟨houter, hinner⟩, hnames⟩ := hparsed
      obtain ⟨hone, hchains, -, hback⟩ := chains_outwards
      obtain ⟨-, hways, hdisjoint, hlines⟩ := hchains root (hone _ root hroot)
      obtain ⟨-, way, -, hway, -, -⟩ := hways _ houter
      obtain ⟨-, way', -, hway', -, -⟩ := hways _ hinner
      exact ⟨root, _, _, way, way', rfl, by decide, hway, hway',
        hdisjoint _ _ _ _ houter hinner (by decide) hway hway',
        fun c hc => (hlines (of_decide_eq_true hnames) _ c houter hc).1,
        hback ⟨⟨"from", 2, none⟩, [⟨"to", 3, some "a"⟩]⟩ rfl (by decide)⟩

end Chain

end RouteCoverage
