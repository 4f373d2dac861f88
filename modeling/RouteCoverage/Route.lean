/-!
# Routes

A route is a tree of processing steps with an optional id, read from one source file.  The
tree is listed in pre-order (`Step.rows`): a step before the steps nested under it, each with
its depth.  Every later stage looks at a route through this list.
-/

namespace RouteCoverage

/-- A processing step: its name, the source line it was written on, and the steps nested
under it. -/
inductive Step where
  | node (name : String) (line : Nat) (children : List Step)
deriving Repr, Inhabited

/-- A route read from `file`; `id` is absent on an anonymous route. -/
structure Route where
  file : String
  id : Option String
  root : Step
deriving Repr, Inhabited

/-- One line of the pre-order listing of a tree of steps. -/
structure Row where
  name : String
  line : Nat
  level : Nat
deriving Repr, DecidableEq, Inhabited

namespace Step

def name : Step → String
  | node name _ _ => name

def line : Step → Nat
  | node _ line _ => line

/-- The steps nested directly under a step. -/
def children : Step → List Step
  | node _ _ children => children

mutual

/-- The number of steps in a tree, its root included. -/
def size : Step → Nat
  | node _ _ children => 1 + sizeAll children

/-- The number of steps in a forest. -/
def sizeAll : List Step → Nat
  | [] => 0
  | s :: rest => size s + sizeAll rest

end

mutual

/-- The pre-order listing of a tree whose root stands at depth `level`. -/
def rows (level : Nat) : Step → List Row
  | node name line children => ⟨name, line, level⟩ :: rowsAll (level + 1) children

/-- The pre-order listing of a forest whose roots stand at depth `level`. -/
def rowsAll (level : Nat) : List Step → List Row
  | [] => []
  | s :: rest => rows level s ++ rowsAll level rest

end

mutual

/-- A tree has as many rows as steps. -/
theorem length_rows (level : Nat) : ∀ s : Step, (s.rows level).length = s.size
  | node _ _ children => by
      simp [rows, size, length_rowsAll (level + 1) children, Nat.add_comm]

theorem length_rowsAll (level : Nat) : ∀ f : List Step, (rowsAll level f).length = sizeAll f
  | [] => rfl
  | s :: rest => by
      simp [rowsAll, sizeAll, length_rows level s, length_rowsAll level rest]

end

end Step

namespace Route

def isAnonymous (r : Route) : Bool := r.id.isNone

end Route

end RouteCoverage
