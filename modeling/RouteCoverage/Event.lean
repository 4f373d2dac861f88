/-!
# Events

What a run reports while it goes on, in the order in which it happens.
-/

namespace RouteCoverage

/-- Something that happens in a run. -/
inductive Event where
  | filesDiscovered (java xml : Nat)
  /-- a file is left out by the filter -/
  | fileSkipped (path : String)
  /-- a file is left out because its routes cannot be read -/
  | parseFailed (path error : String)
  /-- files are left out because nothing reads their kind -/
  | xmlUnsupported (files : Nat)
  | routesDiscovered (count : Nat)
  | anonymousRoutes (count : Nat)
  /-- nothing was recorded for a route -/
  | traceMissing (routeId : String)
  | routeCovered (routeId file : String) (covered total : Nat) (report : String)
  /-- what was recorded for a route cannot be read -/
  | traceFailed (routeId error : String)
deriving DecidableEq, Repr, Inhabited

/-- The events that users should notice. -/
def Event.isWarning : Event → Bool
  | parseFailed .. | anonymousRoutes .. | traceMissing .. => true
  | _ => false

end RouteCoverage
