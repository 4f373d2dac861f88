import RouteCoverage.Dsl.Routes
import RouteCoverage.DumpDirectory
import RouteCoverage.Log
import RouteCoverage.Run

/-!
# Runs over a file tree

Runs whose sources are files of a tree.  If a log is kept, it grows among those files while the
run goes on.
-/

namespace RouteCoverage

def routesOfFile [Source.Parser] (tree : FileTree) (path : Path) :
    Except SourceError (List Route) :=
  match tree.readText path with
  | .ok text => routesOfSource path text
  | .error e => .error ⟨path, .unreadable e⟩

namespace Project

/-- A tree after the events of a run so far were logged, if a log is kept. -/
def logged (settings : Settings) (timestamp : Nat) (tree : FileTree) (events : List Event) :
    FileTree :=
  match settings.resolvedEventLog with
  | some log => Log.append timestamp log events tree
  | none => tree

/-- The files of a tree as sources, with the traces from the directory of dumps. -/
def sources [Source.Parser] (settings : Settings) (timestamp : Nat) (tree : FileTree) : Sources :=
  { routes := fun events path => routesOfFile (logged settings timestamp tree events) path
    trace := fun events id =>
      DumpDirectory.load (logged settings timestamp tree events) settings.resolvedDumpDir id }

/-- The files of a project that a run looks at. -/
def found (settings : Settings) (tree : FileTree) : Discovered :=
  discover tree settings.layout settings.includeTest

end Project

end RouteCoverage
