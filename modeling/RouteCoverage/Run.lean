import RouteCoverage.Coverage
import RouteCoverage.Discovery
import RouteCoverage.Event
import RouteCoverage.Gate
import RouteCoverage.Report
import RouteCoverage.Route
import RouteCoverage.Settings
import RouteCoverage.SourceError
import RouteCoverage.TraceError

/-!
# Runs

A run filters the files it is given, reads their routes, and compares every named route with
its trace.  It reports events on the way and ends with a summary, or at the first trace that
cannot be read.
-/

namespace RouteCoverage

/-- Where a run takes routes and traces from.  The answers may depend on the events reported so
far, since the log of the events may lie among the files. -/
structure Sources where
  routes : List Event → Path → Except SourceError (List Route)
  trace : List Event → String → Except TraceError Trace

/-- The coverage of one route. -/
structure RouteReport where
  routeId : String
  file : String
  entries : List Entry
  report : Report
deriving DecidableEq, Repr, Inhabited

/-- What a finished run found. -/
structure Summary where
  discovered : Nat
  anonymous : Nat
  parseFailures : Nat
  /-- the routes for which nothing was recorded -/
  missing : List String
  reports : List RouteReport
deriving DecidableEq, Repr, Inhabited

/-- The trace of a route cannot be read. -/
structure RunError where
  routeId : String
  cause : TraceError
deriving DecidableEq, Repr

namespace RunError

/-- The wording of a failure. -/
def message (e : RunError) : String :=
  "Error during gathering route coverage data for route: " ++ e.routeId

/-- The wordings of a failure and of its causes, outermost first. -/
def chain (e : RunError) : List String := e.message :: e.cause.chain

end RunError

namespace Summary

/-- The number of reported routes that are not fully covered. -/
def notFullyCovered (s : Summary) : Nat :=
  (s.reports.filter fun r => !r.report.isFullyCovered).length

end Summary

namespace Run

/-- The name of a file in reports and events. -/
def label (basedir path : Path) : String := (path.relativeTo basedir).normalized

def skipped (filter : FileFilter) (files : List Path) : List Event :=
  (files.filter fun file => !filter.accepts file).map fun file =>
    .fileSkipped (label filter.basedir file)

/-- Reads the routes of files; a file that fails is reported and left out. -/
def readRoutes (sources : Sources) (history : List Event) :
    List Path → List Event × List Route
  | [] => ([], [])
  | file :: files =>
    match sources.routes history file with
    | .ok routes =>
      let (events, more) := readRoutes sources history files
      (events, routes ++ more)
    | .error e =>
      let event := Event.parseFailed file.text e.message
      let (events, more) := readRoutes sources (history ++ [event]) files
      (event :: events, more)

/-- What comes of a route for which something was recorded, or nothing. -/
inductive Outcome where
  | missing (routeId : String)
  | reported (report : RouteReport)

def report (basedir : Path) (id : String) (route : Route) (trace : Trace) : RouteReport :=
  let file := label basedir ⟨route.file⟩
  let entries := aggregate route.root trace
  ⟨id, file, entries, render file id entries⟩

def coveredEvent (r : RouteReport) : Event :=
  .routeCovered r.routeId r.file r.report.covered r.report.total r.report.text

/-- Compares a route with its trace: the event, and the outcome or the failure. -/
def coverRoute (sources : Sources) (basedir : Path) (history : List Event) (id : String)
    (route : Route) : Event × Except RunError Outcome :=
  match sources.trace history id with
  | .error e => (.traceFailed id e.message, .error ⟨id, e⟩)
  | .ok [] => (.traceMissing id, .ok (.missing id))
  | .ok trace =>
    let r := report basedir id route trace
    (coveredEvent r, .ok (.reported r))

/-- Compares routes with their traces up to the first failure. -/
def coverAll (sources : Sources) (basedir : Path) (history : List Event) :
    List (String × Route) → List Event × Except RunError (List Outcome)
  | [] => ([], .ok [])
  | (id, route) :: routes =>
    match coverRoute sources basedir history id route with
    | (event, .error e) => ([event], .error e)
    | (event, .ok outcome) =>
      let (events, outcomes) := coverAll sources basedir (history ++ [event]) routes
      (event :: events, outcomes.map (outcome :: ·))

/-- The routes that have an id, with it. -/
def named (routes : List Route) : List (String × Route) :=
  routes.filterMap fun r => r.id.map (·, r)

/-- The ids of the routes for which nothing was recorded. -/
def missing (outcomes : List Outcome) : List String :=
  outcomes.filterMap fun
    | .missing id => some id
    | .reported _ => none

def reports (outcomes : List Outcome) : List RouteReport :=
  outcomes.filterMap fun
    | .missing _ => none
    | .reported r => some r

/-- An event, if its number is not zero. -/
def unlessZero (event : Nat → Event) (n : Nat) : List Event := if n = 0 then [] else [event n]

/-- Runs on the files found: the events in order, and the summary or the failure. -/
def run [Dialect] (settings : Settings) (found : Discovered) (sources : Sources) :
    List Event × Except RunError Summary :=
  let filter := settings.fileFilter
  let basedir := settings.layout.basedir
  let filtered := Event.filesDiscovered found.java.length found.xml.length ::
    (skipped filter found.java ++ skipped filter found.xml ++
      unlessZero .xmlUnsupported (filter.filter found.xml).length)
  let (failed, routes) := readRoutes sources filtered (filter.filter found.java)
  let anonymous := (routes.filter Route.isAnonymous).length
  let read := filtered ++ failed ++ [.routesDiscovered routes.length] ++
    unlessZero .anonymousRoutes anonymous
  let (covered, outcomes) := coverAll sources basedir read (named routes)
  (read ++ covered, outcomes.map fun outcomes =>
    { discovered := routes.length
      anonymous
      parseFailures := failed.length
      missing := missing outcomes
      reports := reports outcomes })

end Run

end RouteCoverage
