import Mathlib.Data.List.Basic
import RouteCoverage.Dsl.Routes
import RouteCoverage.Proofs.Source.Comments
import RouteCoverage.Source.File

/-!
# Comments in a source file

Comments do not change which routes a source file has, in which order, and how their steps are
nested.  The chains of a tree are gathered here as lists of invocations (`invocations`), before
their calls are read: without comments and lines these are the invocations of the tree without
comments (`map_bare_invocations`), and the replay of a chain does not look at lines
(`foldl_call_unlined`).

Only the literals of a chain can be affected.  An invocation gives its literal as long as its
argument list does not begin with a comment; a comment there is taken for the first argument, and
the literal is lost (`literal?_eq`).  So a comment in front of the id of a route changes the id,
and no other comment does.  The main statement is `routes_of_commented`.
-/

namespace RouteCoverage

open Source (Node)
open Source.Node (Commented)

/-! ### Replays do not look at lines -/

namespace Step

mutual

/-- A tree without lines. -/
def unlined : Step → Step
  | node name _ children => node name 0 (unlinedAll children)

/-- Trees without lines. -/
def unlinedAll : List Step → List Step
  | [] => []
  | s :: rest => unlined s :: unlinedAll rest

end

theorem unlinedAll_eq (f : List Step) : unlinedAll f = f.map unlined := by
  induction f with
  | nil => rfl
  | cons s f ih => rw [unlinedAll, ih, List.map_cons]

end Step

namespace OpenBlock

def unlined (b : OpenBlock) : OpenBlock := ⟨b.name, 0, b.finished.map Step.unlined⟩

theorem toStep_unlined (b : OpenBlock) : b.unlined.toStep = b.toStep.unlined := by
  rw [toStep, toStep, Step.unlined, Step.unlinedAll_eq, List.map_reverse]
  rfl

end OpenBlock

namespace Replay

def unlined (r : Replay) : Replay := ⟨r.inner.unlined, r.around.map OpenBlock.unlined⟩

theorem finish_unlined (r : Replay) : r.unlined.finish = r.finish.unlined := by
  obtain ⟨inner, around⟩ := r
  cases around with
  | nil => rfl
  | cons outer around =>
      unfold unlined finish
      dsimp only [List.map_cons]
      rw [OpenBlock.toStep_unlined]
      rfl

theorem finishMany_unlined (n : Nat) (r : Replay) :
    r.unlined.finishMany n = (r.finishMany n).unlined := by
  induction n generalizing r with
  | zero => rfl
  | succ n ih => rw [finishMany, finishMany, finish_unlined, ih]

theorem backTo_unlined (owner : String) (r : Replay) :
    r.unlined.backTo owner = (r.backTo owner).unlined := by
  have hdepth : r.unlined.blocks.findIdx? (·.name = owner) =
      r.blocks.findIdx? (·.name = owner) := by
    have hblocks : r.unlined.blocks = r.blocks.map OpenBlock.unlined := rfl
    rw [hblocks, List.findIdx?_map]
    rfl
  unfold backTo
  rw [hdepth]
  cases r.blocks.findIdx? (·.name = owner) with
  | none => rfl
  | some depth => exact finishMany_unlined depth r

theorem close_unlined (r : Replay) : r.unlined.close = r.close.unlined := by
  have hname : r.unlined.inner.name = r.inner.name := rfl
  unfold close
  rw [hname, finish_unlined]
  split
  · exact finish_unlined r.finish
  · rfl

/-- A call without its line has the same effect, apart from lines. -/
theorem call_unlined {k k' : Call} (hname : k'.name = k.name) (hline : k'.line = 0) (r : Replay) :
    r.unlined.call k' = (r.call k).unlined := by
  have hrole : k'.role = k.role := congrArg Role.ofName hname
  have hopen (r : Replay) : r.unlined.openBlock k' = (r.openBlock k).unlined := by
    rw [openBlock, hname, hline]
    rfl
  unfold call
  rw [hrole]
  cases k.role with
  | leaf =>
      dsimp only
      rw [addLeaf, hname, hline]
      rfl
  | block => exact hopen r
  | branch owner =>
      dsimp only
      rw [backTo_unlined, hopen]
  | close => exact close_unlined r
  | backTo owner => exact backTo_unlined owner r
  | routeId => rfl
  | other => rfl

theorem toStep_toStep_unlined (r : Replay) : r.unlined.toStep = r.toStep.unlined := by
  have hlength : r.unlined.around.length = r.around.length := List.length_map _
  rw [toStep, hlength, finishMany_unlined]
  exact OpenBlock.toStep_unlined _

end Replay

/-! ### Calls and comments -/

namespace Call

def beginsWithComment (arguments : Node) : Bool := arguments.children.head?.any Node.isComment

/-- Whether a comment stands in front of the arguments of an invocation. -/
def isLedByComment (n : Node) : Bool := (n.child? .arguments).any beginsWithComment

/-- The literal that an invocation is given as its first argument, whatever comments there are. -/
def givenLiteral? (n : Node) : Option String := literal? n.bare

theorem name_ofNode_bare (n : Node) : (ofNode n.bare).name = (ofNode n).name := by
  unfold ofNode
  rw [Node.child?_bare]
  cases n.child? .name with
  | none => rfl
  | some name => exact Node.text_bare name

theorem line_ofNode_bare (n : Node) : (ofNode n.bare).line = 0 := by
  unfold ofNode
  rw [Node.child?_bare]
  cases n.child? .name with
  | none => exact Node.line_bare n
  | some name => exact Node.line_bare name

theorem ofNode_literal (n : Node) : (ofNode n).literal = literal? n := by
  unfold ofNode
  split <;> rfl

/-- The literal that stands first in a list of arguments. -/
def literalIn? (arguments : Node) : Option String := do
  let first ← arguments.children.head?
  if first.kind = .stringLiteral then some (unquoted first.text) else none

theorem literal?_eq_bind (n : Node) : literal? n = (n.child? .arguments).bind literalIn? := rfl

theorem literalIn?_eq (arguments : Node) :
    literalIn? arguments =
      if beginsWithComment arguments then none else literalIn? arguments.bare := by
  obtain ⟨kind, part, line, text, children⟩ := arguments
  cases children with
  | nil => rfl
  | cons first others =>
      have hbegins : beginsWithComment (.node kind part line text (first :: others)) =
          first.isComment := rfl
      rw [hbegins]
      cases hfirst : first.isComment with
      | true =>
          obtain ⟨line, text, rfl⟩ := Node.eq_leaf_of_isComment hfirst
          rfl
      | false =>
          have hbare : (Node.node kind part line text (first :: others)).bare.children =
              first.bare :: Node.bareAll others := by
            rw [Node.children_bare, Node.children, Node.bareAll, hfirst]
            rfl
          rw [if_neg Bool.false_ne_true, literalIn?, literalIn?, hbare]
          simp [Node.children]

/-- An invocation loses its literal when its argument list begins with a comment, and only
then. -/
theorem literal?_eq (n : Node) :
    literal? n = if isLedByComment n then none else givenLiteral? n := by
  rw [givenLiteral?, literal?_eq_bind, literal?_eq_bind, Node.child?_bare, isLedByComment]
  cases n.child? .arguments with
  | none => rfl
  | some arguments => exact literalIn?_eq arguments

end Call

namespace Chain

/-! ### Chains of invocations -/

/-- The invocations of a chain: the one that starts it, and those made on it. -/
structure Invocations where
  start : Node
  rest : List Node

namespace Invocations

def chain (c : Invocations) : Chain := ⟨Call.ofNode c.start, c.rest.map Call.ofNode⟩

/-- Invocations without comments and lines. -/
def bare (c : Invocations) : Invocations := ⟨c.start.bare, c.rest.map Node.bare⟩

/-- The steps of a chain, apart from lines, are those without comments. -/
theorem steps_chain_bare (c : Invocations) : c.bare.chain.steps = c.chain.steps.unlined := by
  have hfoldl : ∀ (rest : List Node) (r : Replay),
      ((rest.map Node.bare).map Call.ofNode).foldl Replay.call r.unlined =
        ((rest.map Call.ofNode).foldl Replay.call r).unlined := by
    intro rest
    induction rest with
    | nil => exact fun _ => rfl
    | cons n rest ih =>
        intro r
        rw [List.map_cons, List.map_cons, List.map_cons, List.foldl_cons, List.foldl_cons,
          Replay.call_unlined (Call.name_ofNode_bare n) (Call.line_ofNode_bare n), ih]
  have hstart : Replay.start (Call.ofNode c.start.bare) =
      (Replay.start (Call.ofNode c.start)).unlined := by
    rw [Replay.start, Call.name_ofNode_bare, Call.line_ofNode_bare]
    rfl
  unfold steps chain bare
  rw [hstart, hfoldl, Replay.toStep_toStep_unlined]

end Invocations

mutual

/-- The chains that start in a tree, as lists of invocations.  `outward` holds the invocations
made on the root of the tree, from the inside out. -/
def invocationsIn (outward : List Node) : Node → List Invocations
  | n@(.node kind _ _ _ children) =>
    let here := if isStart n then [⟨n, outward⟩] else []
    let outward := if kind = .methodInvocation then n :: outward else []
    here ++ invocationsInAll outward children

/-- The chains that start in the children of a node, as lists of invocations. -/
def invocationsInAll (outward : List Node) : List Node → List Invocations
  | [] => []
  | n :: rest =>
    invocationsIn (if n.part = some .object then outward else []) n ++
      invocationsInAll outward rest

end

/-- The invocations of the chains of a source file. -/
def invocations (root : Node) : List Invocations := (bodies root).flatMap (invocationsIn [])

mutual

theorem inNode_eq_map (outward : List Node) :
    ∀ n : Node, inNode (outward.map Call.ofNode) n =
      (invocationsIn outward n).map Invocations.chain
  | .node kind part line text children => by
      have hchildren := inChildren_eq_map
        (if kind = .methodInvocation then .node kind part line text children :: outward else [])
        children
      rw [inNode, invocationsIn, List.map_append, ← hchildren]
      congr 1
      · split <;> rfl
      · split <;> rfl

theorem inChildren_eq_map (outward : List Node) :
    ∀ trees : List Node, inChildren (outward.map Call.ofNode) trees =
      (invocationsInAll outward trees).map Invocations.chain
  | [] => rfl
  | n :: rest => by
      rw [inChildren, invocationsInAll, List.map_append, ← inChildren_eq_map outward rest,
        ← inNode_eq_map _ n]
      split <;> rfl

end

/-- The chains of a file make the calls of their invocations. -/
theorem ofTree_eq_map (root : Node) :
    ofTree root = (invocations root).map Invocations.chain := by
  rw [ofTree, invocations, List.map_flatMap]
  exact List.flatMap_congr fun body _ => inNode_eq_map [] body

/-! ### Chains without comments -/

theorem isStart_bare (n : Node) : isStart n.bare = isStart n := by
  unfold isStart
  rw [Node.kind_bare, Node.child?_bare, Node.child?_bare, Option.isNone_map, Option.any_map]
  simp only [Node.text_bare]

mutual

/-- Without comments and lines, the chains that start in a tree are those of the tree without
comments. -/
theorem map_bare_invocationsIn (outward : List Node) :
    ∀ n : Node, (invocationsIn outward n).map Invocations.bare =
      invocationsIn (outward.map Node.bare) n.bare
  | .node kind part line text children => by
      have hchildren := map_bare_invocationsInAll
        (if kind = .methodInvocation then .node kind part line text children :: outward else [])
        children
      have hstart := isStart_bare (.node kind part line text children)
      rw [Node.bare] at hstart
      rw [Node.bare, invocationsIn, invocationsIn, List.map_append, hchildren, hstart]
      congr 1
      · split <;> rfl
      · split <;> rfl

theorem map_bare_invocationsInAll (outward : List Node) :
    ∀ trees : List Node, (invocationsInAll outward trees).map Invocations.bare =
      invocationsInAll (outward.map Node.bare) (Node.bareAll trees)
  | [] => rfl
  | n :: rest => by
      rw [invocationsInAll, Node.bareAll, List.map_append, map_bare_invocationsInAll outward rest,
        map_bare_invocationsIn _ n]
      cases hcomment : n.isComment with
      | true =>
          obtain ⟨line, text, rfl⟩ := Node.eq_leaf_of_isComment hcomment
          split <;> rfl
      | false =>
          rw [if_neg Bool.false_ne_true, invocationsInAll, Node.part_bare]
          split <;> rfl

end

theorem map_bare_bodies (root : Node) : (bodies root).map Node.bare = bodies root.bare := by
  refine Node.map_bare_filterMap_preorder (fun n => ?_) (fun _ _ => rfl) root
  rw [Node.kind_bare, Node.child?_bare, Node.child?_bare, Option.any_map]
  simp only [Node.text_bare]
  split <;> rfl

theorem map_bare_invocations (root : Node) :
    (invocations root).map Invocations.bare = invocations root.bare := by
  rw [invocations, invocations, ← map_bare_bodies, List.map_flatMap, List.flatMap_map]
  exact List.flatMap_congr fun body _ => map_bare_invocationsIn [] body

namespace Invocations

/-- A chain without the invocations that have a comment in front of their arguments. -/
def unled (c : Invocations) : Invocations :=
  ⟨c.start, c.rest.filter (!Call.isLedByComment ·)⟩

/-- The id of a chain is the one that it has without comments, if the calls are left out that have
a comment in front of their arguments. -/
theorem routeId_chain (c : Invocations) : c.chain.routeId = c.unled.bare.chain.routeId := by
  unfold routeId chain bare unled
  dsimp only
  induction c.rest with
  | nil => rfl
  | cons n rest ih =>
      have hrole : (Call.ofNode n.bare).role = (Call.ofNode n).role :=
        congrArg Role.ofName (Call.name_ofNode_bare n)
      rw [List.map_cons, List.findSome?_cons, ih, List.filter_cons, Call.ofNode_literal,
        Call.literal?_eq]
      cases Call.isLedByComment n with
      | true =>
          rw [if_pos rfl, ite_self]
          rfl
      | false =>
          rw [if_neg Bool.false_ne_true, Call.givenLiteral?, ← Call.ofNode_literal, ← hrole]
          rfl

/-- No id is left out if no call that gives one has a comment in front of its arguments. -/
theorem routeId_unled {c : Invocations} (h : ∀ n ∈ c.rest,
    (Call.ofNode n).role = .routeId → Call.isLedByComment n = false) :
    c.unled.bare.chain.routeId = c.bare.chain.routeId := by
  obtain ⟨start, rest⟩ := c
  unfold routeId chain bare unled
  dsimp only at h ⊢
  induction rest with
  | nil => rfl
  | cons n rest ih =>
      have hrole : (Call.ofNode n.bare).role = (Call.ofNode n).role :=
        congrArg Role.ofName (Call.name_ofNode_bare n)
      have hrest := ih fun m hm => h m (List.mem_cons_of_mem n hm)
      rw [List.filter_cons, List.map_cons, List.map_cons, List.findSome?_cons, ← hrest]
      cases hled : Call.isLedByComment n with
      | false => rfl
      | true =>
          have hother : (Call.ofNode n.bare).role ≠ .routeId := by
            intro hid
            rw [h n List.mem_cons_self (hrole.symm.trans hid)] at hled
            cases hled
          rw [if_neg hother]
          rfl

end Invocations

/-- The routes that the tree of a source file builds. -/
def routesOfTree (path : Path) (root : Node) : List Route :=
  (ofTree root).map (Chain.route path.text)

section

variable (path : Path) (root : Node)

theorem map_id_routesOfTree :
    (routesOfTree path root).map Route.id =
      (invocations root).map fun c => c.unled.bare.chain.routeId := by
  rw [routesOfTree, ofTree_eq_map, List.map_map, List.map_map]
  exact List.map_congr_left fun c _ => c.routeId_chain

/-- The file and the steps of the routes, apart from lines, are those of the tree without
comments. -/
theorem map_unlined_routesOfTree :
    (routesOfTree path root).map (fun r => (r.file, r.root.unlined)) =
      (routesOfTree path root.bare).map fun r => (r.file, r.root) := by
  rw [routesOfTree, routesOfTree, ofTree_eq_map, ofTree_eq_map, ← map_bare_invocations]
  simp only [List.map_map]
  exact List.map_congr_left fun c _ => congrArg (path.text, ·) c.steps_chain_bare.symm

end

/-- Comments put into the tree of a source file, anywhere and in any number.  The routes are the
same in number and order, and their steps have the same names and nesting; only the lines may
differ, and the ids.  The invocations of the chains correspond to each other, and the id of a
route is the first literal that is given by a `routeId` invocation without a comment in front
of its arguments.  So the ids are the same if no `routeId` invocation has a comment there. -/
theorem routes_of_commented [Source.Parser] (path : Path) {root root' : Node}
    (h : Commented root root') :
    (∀ source, routesOfSource path source =
      ((Source.Parser.parse source).mapError (⟨path, .malformed ·⟩)).map (routesOfTree path)) ∧
    (routesOfTree path root').map (fun r => (r.file, r.root.unlined)) =
      (routesOfTree path root).map (fun r => (r.file, r.root.unlined)) ∧
    (invocations root').map Invocations.bare = (invocations root).map Invocations.bare ∧
    (∀ tree, (routesOfTree path tree).map Route.id =
      (invocations tree).map fun c => c.unled.bare.chain.routeId) ∧
    ((∀ c ∈ invocations root ++ invocations root', ∀ n ∈ c.rest,
        (Call.ofNode n).role = .routeId → Call.isLedByComment n = false) →
      (routesOfTree path root').map Route.id = (routesOfTree path root).map Route.id) := by
  have hbare := Node.bare_of_commented h
  refine ⟨fun source => ?_, ?_, ?_, map_id_routesOfTree path, fun hunled => ?_⟩
  · unfold routesOfSource
    cases Source.Parser.parse source <;> rfl
  · rw [map_unlined_routesOfTree, map_unlined_routesOfTree, hbare]
  · rw [map_bare_invocations, map_bare_invocations, hbare]
  · have hids : ∀ tree, (∀ c ∈ invocations tree, ∀ n ∈ c.rest,
        (Call.ofNode n).role = .routeId → Call.isLedByComment n = false) →
          (routesOfTree path tree).map Route.id =
            (invocations tree.bare).map fun c => c.chain.routeId := by
      intro tree htree
      rw [map_id_routesOfTree, ← map_bare_invocations, List.map_map]
      exact List.map_congr_left fun c hc => Invocations.routeId_unled (htree c hc)
    rw [hids root fun c hc => hunled c (List.mem_append_left _ hc),
      hids root' fun c hc => hunled c (List.mem_append_right _ hc), hbare]

/-- The tree of a source text that can be read. -/
def treeOf (source : String) : Node := (Source.parse source).toOption.getD default

/-- A route with a block. -/
def plainSource : String :=
  "void configure() \x7b from(\"a\").routeId(\"x\").choice().to(\"b\"); \x7d"

/-- The same route with comments, but none in front of its id. -/
def commentedSource : String :=
  "void configure() /* n */ \x7b from(/* u */ \"a\") // c\n" ++
    ".routeId(\"x\" /* i */) . /* b */ choice().to(\"b\"); /* e */ \x7d"

theorem routes_of_commentedSource :
    Commented (treeOf plainSource) (treeOf commentedSource) ∧
      (routesOfTree ⟨"R.java"⟩ (treeOf commentedSource)).map (fun r => (r.file, r.root.unlined)) =
        (routesOfTree ⟨"R.java"⟩ (treeOf plainSource)).map (fun r => (r.file, r.root.unlined)) ∧
      (routesOfTree ⟨"R.java"⟩ (treeOf plainSource)).map Route.id = [some "x"] ∧
      (routesOfTree ⟨"R.java"⟩ (treeOf commentedSource)).map Route.id = [some "x"] := by
  have hinput : Commented (treeOf plainSource) (treeOf commentedSource) ∧
      (∀ c ∈ invocations (treeOf plainSource) ++ invocations (treeOf commentedSource),
        ∀ n ∈ c.rest, (Call.ofNode n).role = .routeId → Call.isLedByComment n = false) ∧
      (routesOfTree ⟨"R.java"⟩ (treeOf plainSource)).map Route.id = [some "x"] := by
    decide +kernel
  obtain ⟨hcommented, hunled, hid⟩ := hinput
  obtain ⟨-, hsteps, -, -, hids⟩ := routes_of_commented ⟨"R.java"⟩ hcommented
  exact ⟨hcommented, hsteps, hid, (hids hunled).trans hid⟩

def plainId : String := "void configure() \x7b from(\"a\").routeId(\"x\"); \x7d"

/-- The same route with a comment in front of its id. -/
def commentedId : String := "void configure() \x7b from(\"a\").routeId(/* x */ \"x\"); \x7d"

/-- The comment takes the id away. -/
theorem ids_of_commentedId :
    (Source.parse plainId).isOk ∧ (Source.parse commentedId).isOk ∧
      Commented (treeOf plainId) (treeOf commentedId) ∧
      (routesOfTree ⟨"R.java"⟩ (treeOf plainId)).map Route.id = [some "x"] ∧
      (routesOfTree ⟨"R.java"⟩ (treeOf commentedId)).map Route.id = [none] := by
  decide +kernel

end Chain

end RouteCoverage
