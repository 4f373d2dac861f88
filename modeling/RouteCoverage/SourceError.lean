import RouteCoverage.Files.Error
import RouteCoverage.Files.Path

/-!
# Failures of reading routes

Reading the routes of a source file fails on a file that cannot be read as text, or on a fault
of its text.  The file is then left out of a run.
-/

namespace RouteCoverage

/-- Why no routes can be taken from a source file. -/
inductive SourceError.Cause where
  | unreadable (e : FileError)
  /-- the grammar is missing -/
  | grammar (fault : String)
  /-- the text is at fault near a line -/
  | malformed (line : Nat)
deriving DecidableEq, Repr

/-- A failure of reading routes, and the path it happened on. -/
structure SourceError where
  path : Path
  cause : SourceError.Cause
deriving DecidableEq, Repr

/-- The wording of a failure. -/
def SourceError.message (e : SourceError) : String :=
  match e.cause with
  | .unreadable cause => "I/O error: " ++ cause.message ++ " (path: " ++ e.path.text ++ ")"
  | .grammar fault => "Java grammar could not be loaded: " ++ fault
  | .malformed line => "syntax error near line " ++ toString line ++ " in " ++ e.path.text

end RouteCoverage
