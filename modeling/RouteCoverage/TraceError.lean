import RouteCoverage.Dump
import RouteCoverage.Files.Error

/-!
# Failures of loading a trace

Loading the trace of a route fails on a dump file that cannot be read as text, or on a fault
of its content.  Either failure names the file.
-/

namespace RouteCoverage

/-- Why the trace of a route cannot be taken from a dump file. -/
inductive TraceError.Cause where
  | unreadable (e : FileError)
  | fault (e : DumpFault)
deriving DecidableEq, Repr

/-- A failure of loading a trace, and the path it happened on. -/
structure TraceError where
  path : String
  cause : TraceError.Cause
deriving DecidableEq, Repr

namespace TraceError

/-- The wording of a failure. -/
def message (e : TraceError) : String :=
  match e.cause with
  | .unreadable cause => "I/O error: " ++ cause.message ++ " (path: " ++ e.path ++ ")"
  | .fault (.malformed cause) => "malformed coverage dump " ++ e.path ++ ": " ++ cause.message
  | .fault (.invalidCount element value) =>
      "invalid exchangesTotal '" ++ value ++ "' on <" ++ element ++ "> in " ++ e.path

/-- The wordings of a failure and of its causes, outermost first. -/
def chain (e : TraceError) : List String :=
  match e.cause with
  | .unreadable cause => [e.message, cause.message]
  | .fault (.malformed cause) => [e.message, cause.message, cause.detail]
  | .fault (.invalidCount ..) => [e.message]

end TraceError

end RouteCoverage
