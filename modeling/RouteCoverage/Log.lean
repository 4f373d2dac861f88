import RouteCoverage.Files.Tree
import RouteCoverage.Log.Line
import RouteCoverage.Text.Split

/-!
# The event log

The events of a run are appended to a file, one line for each.  A log that cannot be written
never stops a run: then nothing is logged.
-/

namespace RouteCoverage.Log

/-- The lines of events, each ended by a line feed. -/
def lines (timestamp : Nat) (events : List Event) : String :=
  String.join (events.map fun e => (LoggedEvent.render ⟨timestamp, e⟩) ++ "\n")

/-- The tree after the directories on the way to a log are made, if they can be. -/
def prepare (tree : FileTree) (path : Path) : Except FileError FileTree :=
  match path.parent? with
  | some parent => if parent.text.isEmpty then .ok tree else tree.makeDirectories parent
  | none => .ok tree

def append (timestamp : Nat) (path : Path) (events : List Event) (tree : FileTree) : FileTree :=
  if events.isEmpty then tree
  else match prepare tree path with
    | .error _ => tree
    | .ok prepared =>
      match prepared.append path (lines timestamp events) with
      | .ok logged => logged
      | .error _ => prepared

/-- The events of a text of lines; `none` if some line is none. -/
def read? (text : String) : Option (List Event) :=
  let lines := (splitAt '\n' text.toList).map fun line =>
    match line.reverse with
    | '\r' :: rest => rest.reverse
    | _ => line
  let lines := match lines.reverse with
    | [] :: before => before.reverse
    | _ => lines
  lines.mapM fun line => (LoggedEvent.ofLine? (String.ofList line)).map (·.event)

end RouteCoverage.Log
