import RouteCoverage.Dsl.Role
import RouteCoverage.Route

/-!
# From a chain of calls to a tree of steps

A chain is replayed from its first call outwards over a stack of open blocks.  A step becomes
the last child of the innermost open block; blocks and branches are opened by it.  A branch
first goes back to its owner, if the owner is open.  Closing the innermost block closes, when
it is a branch, the block around it as well; the route itself is never closed.
-/

namespace RouteCoverage

/-- One call of a chain: its name, the line of that name, and its first argument when that is
a string literal. -/
structure Call where
  name : String
  line : Nat
  literal : Option String
deriving DecidableEq, Repr, Inhabited

namespace Call

def role (c : Call) : Role := Role.ofName c.name

end Call

/-- A block that still takes steps; the finished ones stand last first. -/
structure OpenBlock where
  name : String
  line : Nat
  finished : List Step
deriving Repr, Inhabited

namespace OpenBlock

def add (b : OpenBlock) (s : Step) : OpenBlock := { b with finished := s :: b.finished }

/-- The step that a block is once nothing more is added to it. -/
def toStep (b : OpenBlock) : Step := .node b.name b.line b.finished.reverse

end OpenBlock

/-- The open blocks of a replay: `inner`, then the blocks around it from the inside out.  The
last of them is the route's own block. -/
structure Replay where
  inner : OpenBlock
  around : List OpenBlock
deriving Repr, Inhabited

namespace Replay

def blocks (r : Replay) : List OpenBlock := r.inner :: r.around

/-- A replay that has seen the first call of a chain. -/
def start (c : Call) : Replay := ⟨⟨c.name, c.line, []⟩, []⟩

/-- Finishes the innermost block, unless it is the route itself. -/
def finish (r : Replay) : Replay :=
  match r.around with
  | [] => r
  | outer :: around => ⟨outer.add r.inner.toStep, around⟩

/-- Finishes the innermost `n` blocks. -/
def finishMany : Nat → Replay → Replay
  | 0, r => r
  | n + 1, r => finishMany n r.finish

/-- Makes the innermost open block named `owner` the innermost one; without such a block
nothing changes. -/
def backTo (owner : String) (r : Replay) : Replay :=
  match r.blocks.findIdx? (·.name = owner) with
  | some depth => r.finishMany depth
  | none => r

/-- Closes the innermost block, and with a branch also the block around it. -/
def close (r : Replay) : Replay :=
  if isBranch r.inner.name then r.finish.finish else r.finish

/-- Adds a step without children to the innermost block. -/
def addLeaf (c : Call) (r : Replay) : Replay :=
  { r with inner := r.inner.add (.node c.name c.line []) }

/-- Opens a block inside the innermost one. -/
def openBlock (c : Call) (r : Replay) : Replay := ⟨⟨c.name, c.line, []⟩, r.blocks⟩

/-- The effect of one call on the open blocks. -/
def call (r : Replay) (c : Call) : Replay :=
  match c.role with
  | .leaf => r.addLeaf c
  | .block => r.openBlock c
  | .branch owner => (r.backTo owner).openBlock c
  | .close => r.close
  | .backTo owner => r.backTo owner
  | .routeId | .other => r

/-- The tree of steps once every open block is finished. -/
def toStep (r : Replay) : Step := (r.finishMany r.around.length).inner.toStep

end Replay

/-- A chain: the call that starts the route, and the calls made on it. -/
structure Chain where
  start : Call
  rest : List Call
deriving DecidableEq, Repr, Inhabited

namespace Chain

/-- Every call of a chain, in order. -/
def calls (c : Chain) : List Call := c.start :: c.rest

/-- The id of a route is the literal of the first call that gives an id by a literal. -/
def routeId (c : Chain) : Option String :=
  c.rest.findSome? fun call => if call.role = .routeId then call.literal else none

/-- The steps of the route that a chain builds. -/
def steps (c : Chain) : Step := (c.rest.foldl Replay.call (.start c.start)).toStep

/-- The route that a chain in `file` builds. -/
def route (file : String) (c : Chain) : Route := ⟨file, c.routeId, c.steps⟩

end Chain

end RouteCoverage
