import RouteCoverage.TraceError
import RouteCoverage.Files.Tree

/-!
# Directories of dumps

The dumps of a project lie in one directory, one file for each test run.  The trace of a route
is merged from all of them in the order of their names.
-/

namespace RouteCoverage.DumpDirectory

/-- The dump files of a directory in the order of their names; a missing directory has none. -/
def files (tree : FileTree) (dir : Path) : List Path :=
  ((tree.directory? dir).getD []).filterMap fun (name, node) =>
    let path := dir.join ⟨name⟩
    match node with
    | .file _ => if path.extension? = some "xml" then some path else none
    | .directory _ => none

/-- The trace of a route that one dump file holds. -/
def trace (tree : FileTree) (routeId : String) (file : Path) : Except TraceError Trace :=
  match tree.readText file with
  | .error e => .error ⟨file.text, .unreadable e⟩
  | .ok text => (Dump.records routeId text).mapError (⟨file.text, .fault ·⟩)

/-- The trace of a route, merged over all dump files; the first file that fails decides. -/
def load (tree : FileTree) (dir : Path) (routeId : String) : Except TraceError Trace := do
  return Trace.mergeAll (← (files tree dir).mapM (trace tree routeId))

end RouteCoverage.DumpDirectory
