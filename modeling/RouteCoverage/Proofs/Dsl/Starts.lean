import RouteCoverage.Dsl.Routes
import RouteCoverage.Proofs.Source.Positions
import RouteCoverage.Source.File

/-!
# Where the routes of a source file start

The chains of a tree are those that start at the positions `starts`: for every body of a builder
method the starts in it, in pre-order.  A start that lies in several such bodies, one inside the
other, is found once for each of them (`count_starts`), so every start in a body is found exactly
once if and only if no two bodies around a start are nested (`routes_of_starts`).
-/

namespace RouteCoverage.Chain

open Source (Node Position)

/-! ### The chain at a position -/

def startsAt (root : Node) (p : Position) : Bool := (root.at? p).any isStart

/-- The invocations made on the node at a position, from the inside out; the position is given
from the inside out, too. -/
def callsUp (root : Node) : List Nat → List Call
  | [] => []
  | i :: up =>
    match root.at? up.reverse with
    | none => []
    | some parent =>
      if parent.kind = .methodInvocation ∧
          (parent.children[i]?).any (·.part = some .object) then
        Call.ofNode parent :: callsUp root up
      else []

/-- The invocations made on the node at a position: as long as a node is the object of an
invocation, that invocation comes next. -/
def callsOn (root : Node) (p : Position) : List Call := callsUp root p.reverse

/-- The chain that starts at a position, if there is a node. -/
def at? (root : Node) (p : Position) : Option Chain :=
  (root.at? p).map fun n => ⟨Call.ofNode n, callsOn root p⟩

section

variable {root : Node}

theorem callsOn_concat {p : Position} {n c : Node} {i : Nat} (hn : root.at? p = some n)
    (hc : n.children[i]? = some c) :
    callsOn root (p ++ [i]) =
      if c.part = some .object then
        if n.kind = .methodInvocation then Call.ofNode n :: callsOn root p else []
      else [] := by
  unfold callsOn
  rw [List.reverse_append, List.reverse_singleton, List.singleton_append, callsUp,
    List.reverse_reverse, hn]
  by_cases hobject : c.part = some .object <;> simp [hc, hobject]

theorem inChildren_eq (outward : List Call) (children : List Node) :
    inChildren outward children =
      children.flatMap fun n => inNode (if n.part = some .object then outward else []) n := by
  induction children with
  | nil => rfl
  | cons n rest ih => rw [inChildren, ih, List.flatMap_cons]

/-- The chains found from a node on, if it is entered with the invocations made on it. -/
theorem map_inNode {n : Node} {p : Position} (hn : root.at? p = some n) :
    (inNode (callsOn root p) n).map some =
      n.positions.flatMap fun q => if startsAt root (p ++ q) then [at? root (p ++ q)] else [] := by
  have h : ∀ p n, root.at? p = some n → (inNode (callsOn root p) n).map some =
      (if startsAt root p then [at? root p] else []) ++
        n.children.zipIdx.flatMap fun child =>
          (inNode (callsOn root (p ++ [child.2])) child.1).map some := by
    rintro p n hn
    have hhere : (if isStart n then [some ⟨Call.ofNode n, callsOn root p⟩] else []) =
        if startsAt root p then [at? root p] else [] := by
      simp only [startsAt, at?, hn, Option.any_some, Option.map_some]
    rw [← hhere]
    obtain ⟨kind, part, line, text, children⟩ := n
    rw [inNode, List.map_append, inChildren_eq, List.map_flatMap,
      Node.flatMap_eq_flatMap_zipIdx]
    congr 1
    · split <;> rfl
    · refine List.flatMap_congr fun child hchild => ?_
      rw [callsOn_concat hn (List.mem_zipIdx_iff_getElem?.mp hchild)]
      rfl
  exact Node.eq_flatMap_positions (fun p n => (inNode (callsOn root p) n).map some) h n p hn

end

/-! ### The bodies of builder methods -/

/-- Whether a node is a method that builds routes. -/
def isBuilder (n : Node) : Bool :=
  n.kind = .methodDeclaration && (n.child? .name).any (·.text == builderName)

/-- The position of the body of the builder method at a position. -/
def bodyAt? (root : Node) (p : Position) : Option Position := do
  let method ← root.at? p
  if isBuilder method then
    return p ++ [← method.children.findIdx? (·.part = some .body)]
  else none

/-- The positions of the bodies of builder methods, in the order of the methods. -/
def bodyPositions (root : Node) : List Position := root.positions.filterMap (bodyAt? root)

/-- The bodies of builder methods that a position lies in. -/
def bodiesAround (root : Node) (p : Position) : List Position :=
  (bodyPositions root).filter (· <+: p)

/-- The starts in the tree at a position, in pre-order. -/
def startsIn (root : Node) (b : Position) : List Position :=
  ((((root.at? b).map Node.positions).getD []).map (b ++ ·)).filter (startsAt root)

/-- The starts in each body of a builder method. -/
def starts (root : Node) : List Position := (bodyPositions root).flatMap (startsIn root)

section

variable {root : Node} {p b : Position}

theorem bodyAt?_eq_some_iff :
    bodyAt? root p = some b ↔ ∃ method i, root.at? p = some method ∧ isBuilder method ∧
      method.children.findIdx? (·.part = some .body) = some i ∧ b = p ++ [i] := by
  unfold bodyAt?
  constructor
  · intro h
    obtain ⟨method, hmethod, h⟩ := Option.bind_eq_some_iff.mp h
    split at h
    · next hbuilder =>
        obtain ⟨i, hi, h⟩ := Option.bind_eq_some_iff.mp h
        exact ⟨method, i, hmethod, hbuilder, hi, (Option.some.inj h).symm⟩
    · cases h
  · rintro ⟨method, i, hmethod, hbuilder, hi, rfl⟩
    simp [hmethod, hbuilder, hi]

/-- The position of a body holds a node that is no object, so no invocation is made on it. -/
theorem exists_body (h : bodyAt? root p = some b) :
    ∃ body, root.at? b = some body ∧ callsOn root b = [] := by
  obtain ⟨method, i, hmethod, -, hi, rfl⟩ := bodyAt?_eq_some_iff.mp h
  obtain ⟨hlt, hpart, -⟩ := List.findIdx?_eq_some_iff_getElem.mp hi
  have hbody : method.children[i]? = some method.children[i] := List.getElem?_eq_getElem hlt
  refine ⟨method.children[i], ?_, ?_⟩
  · rw [Node.at?_concat, hmethod]
    exact hbody
  · rw [callsOn_concat hmethod hbody, of_decide_eq_true hpart, if_neg (by decide)]

theorem nodup_bodyPositions (root : Node) : (bodyPositions root).Nodup := by
  refine (Node.nodup_positions root).filterMap fun p q b hp hq => ?_
  obtain ⟨-, i, -, -, -, rfl⟩ := bodyAt?_eq_some_iff.mp hp
  obtain ⟨-, j, -, -, -, h⟩ := bodyAt?_eq_some_iff.mp hq
  exact (List.append_inj' h rfl).1

/-! ### The starts in the bodies -/

theorem mem_startsIn : p ∈ startsIn root b ↔ b <+: p ∧ startsAt root p := by
  unfold startsIn
  rw [List.mem_filter]
  refine and_congr_left fun hstart => ?_
  constructor
  · intro h
    obtain ⟨q, -, rfl⟩ := List.mem_map.mp h
    exact List.prefix_append b q
  · rintro ⟨q, rfl⟩
    unfold startsAt at hstart
    rw [Node.at?_append] at hstart
    cases hn : root.at? b with
    | none =>
        rw [hn] at hstart
        cases hstart
    | some n =>
        rw [hn, Option.bind_some] at hstart
        obtain ⟨m, hm, -⟩ := (Option.any_eq_true ..).mp hstart
        exact List.mem_map_of_mem (Node.mem_positions.mpr (by rw [hm]; rfl))

theorem nodup_startsIn (root : Node) (b : Position) : (startsIn root b).Nodup := by
  refine List.Nodup.filter _ (List.Nodup.map (List.append_right_injective b) ?_)
  cases root.at? b with
  | none => exact List.nodup_nil
  | some n => exact n.nodup_positions

/-- How often an element is gathered from lists in which it stands at most once. -/
theorem count_flatMap_of_nodup {α β : Type} [BEq β] [LawfulBEq β] {f : α → List β}
    (hf : ∀ a, (f a).Nodup) (l : List α) (x : β) :
    (l.flatMap f).count x = l.countP (x ∈ f ·) := by
  induction l with
  | nil => rfl
  | cons a l ih =>
      rw [List.flatMap_cons, List.count_append, ih, List.countP_cons, (hf a).count]
      simp [Nat.add_comm]

/-- A start is found once for each body that it lies in. -/
theorem count_starts (root : Node) (p : Position) :
    (starts root).count p = if startsAt root p then (bodiesAround root p).length else 0 := by
  unfold starts
  rw [count_flatMap_of_nodup (nodup_startsIn root), bodiesAround, ← List.countP_eq_length_filter]
  split
  · next hstart => simp only [mem_startsIn, hstart, and_true]
  · next hstart => simp [mem_startsIn, hstart]

/-! ### The chains of a tree -/

theorem bodies_eq (root : Node) :
    bodies root = (bodyPositions root).filterMap fun b => root.at? b := by
  have hbodies : bodies root =
      root.preorder.filterMap fun n => if isBuilder n then n.child? .body else none := rfl
  rw [hbodies, Node.preorder_eq, bodyPositions, List.filterMap_filterMap,
    List.filterMap_filterMap]
  refine List.filterMap_congr fun p _ => ?_
  unfold bodyAt?
  cases hn : root.at? p with
  | none => rfl
  | some n =>
      by_cases hbuilder : isBuilder n <;>
        simp [hbuilder, Node.child?, List.find?_eq_bind_findIdx?_getElem?, Option.bind_assoc,
          Node.at?_concat, hn]

theorem map_startsIn {n : Node} (hn : root.at? b = some n) :
    (startsIn root b).map (at? root) = (inNode (callsOn root b) n).map some := by
  rw [map_inNode hn]
  unfold startsIn
  rw [hn, Option.map_some, Option.getD_some]
  induction n.positions with
  | nil => rfl
  | cons q positions ih =>
      rw [List.map_cons, List.filter_cons, List.flatMap_cons, ← ih]
      split <;> rfl

/-- The chains of a tree are those at its starts. -/
theorem map_ofTree (root : Node) : (ofTree root).map some = (starts root).map (at? root) := by
  have hbody : ∀ b ∈ bodyPositions root, ∃ p, bodyAt? root p = some b := by
    intro b hb
    obtain ⟨p, -, hp⟩ := List.mem_filterMap.mp hb
    exact ⟨p, hp⟩
  unfold ofTree starts
  rw [bodies_eq]
  generalize bodyPositions root = positions at hbody ⊢
  induction positions with
  | nil => rfl
  | cons b positions ih =>
      obtain ⟨p, hp⟩ := hbody b List.mem_cons_self
      obtain ⟨body, hat, hcalls⟩ := exists_body hp
      rw [List.filterMap_cons_some (f := fun b => root.at? b) hat, List.flatMap_cons,
        List.flatMap_cons, List.map_append, List.map_append, map_startsIn hat, hcalls,
        ih fun c hc => hbody c (List.mem_cons_of_mem b hc)]

end

/-- The routes of a source file are those of the chains at the starts of its tree, in this order.
A start, which is an invocation of `from` without an object, is found once for each body of a
builder method that it lies in, and nothing else is found.  So the starts in such bodies are found
exactly once each if and only if none of them lies in two. -/
theorem routes_of_starts [Source.Parser] (path : Path) (source : String) :
    (routesOfSource path source).map (List.map some) =
        ((Source.Parser.parse source).mapError fun line => ⟨path, .malformed line⟩).map (fun root =>
          (starts root).map fun p => (at? root p).map (Chain.route path.text)) ∧
      ∀ root : Node,
        (∀ p, (bodiesAround root p).Nodup ∧ (starts root).count p =
          if startsAt root p then (bodiesAround root p).length else 0) ∧
        ((∀ p, (starts root).count p =
            if startsAt root p ∧ bodiesAround root p ≠ [] then 1 else 0) ↔
          ∀ p, startsAt root p → (bodiesAround root p).length ≤ 1) := by
  refine ⟨?_, fun root => ⟨fun p =>
    ⟨(nodup_bodyPositions root).filter _, count_starts root p⟩, forall_congr' fun p => ?_⟩⟩
  · unfold routesOfSource
    cases Source.Parser.parse source with
    | error line => rfl
    | ok root =>
        have h := congrArg (List.map (Option.map (Chain.route path.text))) (map_ofTree root)
        rw [List.map_map, List.map_map] at h
        refine congrArg Except.ok ?_
        rw [List.map_map]
        exact h
  · rw [count_starts]
    by_cases hstart : startsAt root p
    · rcases bodiesAround root p with - | ⟨b, - | ⟨b', bodies⟩⟩ <;> simp [hstart]
    · simp [hstart]

/-- A builder method whose body declares a class with a builder method. -/
def nestedBuilders : String := "void configure() { new B() { void configure() { from(); } }; }"

/-- The one start of the text lies in two bodies, and its chain is found twice. -/
theorem ofTree_nestedBuilders :
    (Source.parse nestedBuilders).toOption.map (fun root =>
        (root.positions.filter (startsAt root), bodyPositions root, starts root, ofTree root)) =
      some ([[0, 3, 0, 0, 2, 0, 3, 0, 0]], [[0, 3], [0, 3, 0, 0, 2, 0, 3]],
        [[0, 3, 0, 0, 2, 0, 3, 0, 0], [0, 3, 0, 0, 2, 0, 3, 0, 0]],
        [⟨⟨"from", 1, none⟩, []⟩, ⟨⟨"from", 1, none⟩, []⟩]) := by
  decide +kernel

end RouteCoverage.Chain
