/-!
# The coverage gate

A run passes unless the gate is on and some reported route is not fully covered.
-/

namespace RouteCoverage

/-- The gate refuses a run because `count` routes are not fully covered. -/
structure NotFullyCovered where
  count : Nat
deriving DecidableEq, Repr

namespace NotFullyCovered

/-- The wording of the refusal. -/
def message (e : NotFullyCovered) : String :=
  "There are " ++ toString e.count ++ " route(s) not fully covered!"

end NotFullyCovered

/-- The decision on a run of which `count` reported routes are not fully covered. -/
def verdict (gate : Bool) (count : Nat) : Except NotFullyCovered Unit :=
  if gate && 0 < count then .error ⟨count⟩ else .ok ()

/-- How the program ends. -/
inductive ExitCode where
  /-- the run finished and passed -/
  | success
  /-- the run could not be finished -/
  | failure
  /-- the gate refused the run -/
  | refused
deriving DecidableEq, Repr

namespace ExitCode

/-- The number that the operating system is told. -/
def toNat : ExitCode → Nat
  | success => 0
  | failure => 1
  | refused => 2

/-- How a finished run ends, by its verdict. -/
def ofVerdict : Except NotFullyCovered Unit → ExitCode
  | .ok _ => success
  | .error _ => refused

end ExitCode

end RouteCoverage
