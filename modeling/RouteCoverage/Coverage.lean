import RouteCoverage.Route
import RouteCoverage.Trace

/-!
# Matching a route with its records

The records of a route are ordered by the visits of a run and carry no position in the tree,
so they are matched in order: the tree is walked in pre-order (`Step.visit`), and the records
not passed yet go along with the walk.  A step takes the first of them that has its name; a
record passed over is lost; once a step finds none, no record is left and every later step
counts as not hit.
-/

namespace RouteCoverage

/-- A step of a route with its depth and the hits recorded for it. -/
structure Entry where
  name : String
  line : Nat
  level : Nat
  hits : Hits
deriving DecidableEq, Repr, Inhabited

namespace Entry

/-- The row of the tree that an entry decorates. -/
def row (e : Entry) : Row := ⟨e.name, e.line, e.level⟩

/-- An entry is covered when its step was hit. -/
def isCovered (e : Entry) : Bool := 0 < e.hits.count

end Entry

namespace Trace

/-- The hits of the first record named `name`, and the records after it. -/
def take? (name : String) : Trace → Option (Hits × Trace)
  | [] => none
  | r :: rest => if r.name = name then some (r.hits, rest) else take? name rest

/-- What a step named `name` gets from a trace, and the records left for the steps after it.
Without a record of the name the step is not hit and nothing is left. -/
def serve (name : String) (trace : Trace) : Hits × Trace :=
  (trace.take? name).getD (.zero, [])

end Trace

namespace Step

mutual

/-- Walks through a tree whose root stands at depth `level`: an entry for each step, and the
records that are left. -/
def visit (level : Nat) : Step → Trace → List Entry × Trace
  | node name line children, trace =>
      let (hits, rest) := trace.serve name
      let (below, rest) := visitAll (level + 1) children rest
      (⟨name, line, level, hits⟩ :: below, rest)

/-- Walks through the trees of a forest, one after the other. -/
def visitAll (level : Nat) : List Step → Trace → List Entry × Trace
  | [], trace => ([], trace)
  | s :: others, trace =>
      let (first, rest) := visit level s trace
      let (more, rest) := visitAll level others rest
      (first ++ more, rest)

end

end Step

/-- The coverage of a route by a trace: one entry for each of its steps, in pre-order. -/
def aggregate (root : Step) (trace : Trace) : List Entry := (root.visit 0 trace).1

end RouteCoverage
