import RouteCoverage.Event
import RouteCoverage.Log.Json

/-!
# Lines of the event log

An event is logged as one line: an object with the time and the kind of the event.
-/

namespace RouteCoverage

/-- An event with the time at which it happened, in seconds. -/
structure LoggedEvent where
  timestamp : Nat
  event : Event
deriving DecidableEq, Repr, Inhabited

namespace Event

/-- An event as a value: an object with one field, which is named for the kind of event. -/
def toJson (e : Event) : Json :=
  let (kind, fields) := match e with
    | filesDiscovered java xml =>
        ("files_discovered", [("java", Json.natural java), ("xml", .natural xml)])
    | fileSkipped path => ("file_skipped", [("path", .text path)])
    | parseFailed path error => ("parse_failed", [("path", .text path), ("error", .text error)])
    | xmlUnsupported files => ("xml_unsupported", [("files", .natural files)])
    | routesDiscovered count => ("routes_discovered", [("count", .natural count)])
    | anonymousRoutes count => ("anonymous_routes", [("count", .natural count)])
    | traceMissing routeId => ("trace_missing", [("route_id", .text routeId)])
    | routeCovered routeId file covered total report =>
        ("route_covered", [("route_id", .text routeId), ("file", .text file),
          ("covered", .natural covered), ("total", .natural total), ("report", .text report)])
    | traceFailed routeId error =>
        ("trace_failed", [("route_id", .text routeId), ("error", .text error)])
  .object [(kind, .object fields)]

/-- The value of a field that occurs exactly once. -/
def field? (fields : List (String × Json)) (name : String) : Option Json :=
  match fields.filter (·.1 = name) with
  | [(_, value)] => some value
  | _ => none

def textField? (fields : List (String × Json)) (name : String) : Option String :=
  match field? fields name with
  | some (.text s) => some s
  | _ => none

/-- A field that holds a number of at most 64 bits. -/
def naturalField? (fields : List (String × Json)) (name : String) : Option Nat :=
  match field? fields name with
  | some (.natural n) => if n < 0x10000000000000000 then some n else none
  | _ => none

/-- The event that a value stands for.  Fields of other names are ignored. -/
def ofJson? : Json → Option Event
  | .object [(kind, .object fields)] =>
    let text := textField? fields
    let natural := naturalField? fields
    match kind with
    | "files_discovered" => do return .filesDiscovered (← natural "java") (← natural "xml")
    | "file_skipped" => do return .fileSkipped (← text "path")
    | "parse_failed" => do return .parseFailed (← text "path") (← text "error")
    | "xml_unsupported" => do return .xmlUnsupported (← natural "files")
    | "routes_discovered" => do return .routesDiscovered (← natural "count")
    | "anonymous_routes" => do return .anonymousRoutes (← natural "count")
    | "trace_missing" => do return .traceMissing (← text "route_id")
    | "route_covered" => do
        return .routeCovered (← text "route_id") (← text "file") (← natural "covered")
          (← natural "total") (← text "report")
    | "trace_failed" => do return .traceFailed (← text "route_id") (← text "error")
    | _ => none
  | _ => none

end Event

namespace LoggedEvent

/-- The line of an event, without its line feed. -/
def render (e : LoggedEvent) : String :=
  (Json.object [("timestamp", .natural e.timestamp), ("kind", e.event.toJson)]).render

def ofLine? (line : String) : Option LoggedEvent := do
  match ← Json.read? line with
  | .object fields =>
    return ⟨← Event.naturalField? fields "timestamp",
      ← Event.ofJson? (← Event.field? fields "kind")⟩
  | _ => none

end LoggedEvent

end RouteCoverage
