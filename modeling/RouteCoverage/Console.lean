import RouteCoverage.Run

/-!
# Console output

How the events of a run and its summary look on the console.  Reports and notes go to the
standard output, warnings to the standard error; some notes are written only when more
messages are wanted.
-/

namespace RouteCoverage

/-- Lines for the two output channels. -/
structure Console where
  out : List String
  err : List String
deriving DecidableEq, Repr, Inhabited

namespace Console

/-- Nothing. -/
def silent : Console := ⟨[], []⟩

/-- A line on the standard output. -/
def info (line : String) : Console := ⟨[line], []⟩

/-- A line on the standard output that is written only when more messages are wanted. -/
def detail (verbose : Bool) (line : String) : Console := if verbose then info line else silent

/-- A warning on the standard error. -/
def warning (line : String) : Console := ⟨[], ["warning: " ++ line]⟩

def error (line : String) : Console := ⟨[], ["error: " ++ line]⟩

/-- One output after another. -/
def append (a b : Console) : Console := ⟨a.out ++ b.out, a.err ++ b.err⟩

instance : Append Console := ⟨append⟩

/-- Several outputs one after another. -/
def all (cs : List Console) : Console := ⟨cs.flatMap (·.out), cs.flatMap (·.err)⟩

/-- What is written for an event.  The failure of a run is written at its end instead. -/
def event (verbose : Bool) : Event → Console
  | .filesDiscovered java xml =>
      detail verbose ("Scanning " ++ toString java ++ " java and " ++ toString xml ++ " xml files")
  | .fileSkipped path => detail verbose ("  skipped " ++ path)
  | .parseFailed path error => warning ("Error parsing java file " ++ path ++ " code due " ++ error)
  | .xmlUnsupported files =>
      detail verbose ("Skipping " ++ toString files ++
        " xml files (XML routes are not analyzed)")
  | .routesDiscovered count => info ("Discovered " ++ toString count ++ " routes")
  | .anonymousRoutes count =>
      warning ("Discovered " ++ toString count ++
        " anonymous routes. Add route ids to these routes for route coverage support")
  | .traceMissing routeId =>
      warning ("No route coverage data found for route: " ++ routeId ++
        ". Make sure to enable route coverage in your unit tests and assign unique route ids " ++
        "to your routes. Also remember to run unit tests first.")
  | .routeCovered _ _ _ _ report => info ("Route coverage summary:\n\n" ++ report)
  | .traceFailed .. => silent

/-- The line that closes a finished run. -/
def closing (failOnError : Bool) (s : Summary) : String :=
  let reported := toString s.reports.length
  if s.notFullyCovered = 0 then "OK " ++ reported ++ " route(s) reported, all fully covered."
  else (if failOnError then "X " else "~ ") ++ toString s.notFullyCovered ++ " of " ++ reported ++
    " route(s) not fully covered."

/-- The line for a route that is not fully covered. -/
def shortfall (r : RouteReport) : String :=
  "  " ++ r.routeId ++ " " ++ percentText r.report.covered r.report.total ++ "%"

/-- What is written for the summary of a run. -/
def summary (failOnError : Bool) (s : Summary) : Console :=
  ⟨closing failOnError s ::
    (s.reports.filter fun r => !r.report.isFullyCovered).map shortfall, []⟩

end Console

end RouteCoverage
