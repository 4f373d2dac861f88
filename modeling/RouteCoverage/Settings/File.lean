import RouteCoverage.Document.Read
import RouteCoverage.Settings.Layout

/-!
# Settings files

What a settings file may say.  Unknown keys are ignored, missing ones keep their usual values,
and a value of a wrong kind spoils the whole file.
-/

namespace RouteCoverage

open Document (Value Entries)

/-- The contents of a settings file. -/
structure SettingsFile where
  failOnError : Bool
  includeTest : Bool
  includes : Option String
  excludes : Option String
  dumpDir : String
  eventLog : Option String
  roots : Roots
deriving DecidableEq, Repr, Inhabited

namespace SettingsFile

/-- The name of settings files. -/
def name : String := "routecov.toml"

/-- The directory of dumps of a project that names none. -/
def usualDumpDir : String := "target/camel-route-coverage"

/-- The settings of a project without a settings file. -/
def usual : SettingsFile :=
  { failOnError := false, includeTest := false, includes := none, excludes := none
    dumpDir := usualDumpDir, eventLog := none, roots := .usual }

def boolean? : Value → Option Bool
  | .boolean b => some b
  | _ => none

def text? : Value → Option String
  | .text s => some s
  | _ => none

def texts? : Value → Option (List String)
  | .array elements => elements.mapM text?
  | _ => none

/-- The value of a key that may be missing. -/
def field? {α : Type} (entries : Entries) (key : String) (read : Value → Option α)
    (usual : α) : Option α :=
  match entries.get? key with
  | some value => read value
  | none => some usual

/-- The element of a list that may be too short. -/
def element? {α : Type} (elements : List Value) (index : Nat) (read : Value → Option α)
    (usual : α) : Option α :=
  match elements[index]? with
  | some value => read value
  | none => some usual

/-- The roots: a table, or a list of their values in order.  A date has no known key, and so it
reads as an empty table. -/
def roots? : Value → Option Roots
  | .table _ entries => do
    return {
      source := ← field? entries "source_roots" texts? Roots.usual.source
      resource := ← field? entries "resource_roots" texts? Roots.usual.resource
      testSource := ← field? entries "test_source_roots" texts? Roots.usual.testSource
      testResource := ← field? entries "test_resource_roots" texts? Roots.usual.testResource }
  | .array elements => do
    return {
      source := ← element? elements 0 texts? Roots.usual.source
      resource := ← element? elements 1 texts? Roots.usual.resource
      testSource := ← element? elements 2 texts? Roots.usual.testSource
      testResource := ← element? elements 3 texts? Roots.usual.testResource }
  | .moment _ => some .usual
  | _ => none

/-- The settings that a document gives. -/
def ofEntries? (entries : Entries) : Option SettingsFile := do
  return {
    failOnError := ← field? entries "fail_on_error" boolean? usual.failOnError
    includeTest := ← field? entries "include_test" boolean? usual.includeTest
    includes := ← field? entries "includes" (fun v => (text? v).map some) usual.includes
    excludes := ← field? entries "excludes" (fun v => (text? v).map some) usual.excludes
    dumpDir := ← field? entries "dump_dir" text? usual.dumpDir
    eventLog := ← field? entries "event_log" (fun v => (text? v).map some) usual.eventLog
    roots := ← field? entries "layout" roots? usual.roots }

def ofText? (text : String) : Option SettingsFile := do ofEntries? (← Document.read? text)

/-- The settings file that a new project starts with.  It says what holds without it. -/
def template : String :=
  "# " ++ name ++ "\n" ++
  "# Fail the run when a route is not fully covered.\n" ++
  "fail_on_error = false\n" ++
  "# Also scan test source and resource roots.\n" ++
  "include_test = false\n" ++
  "# Comma-separated wildcard or regex patterns.\n" ++
  "# includes = \"*Route.java\"\n" ++
  "# excludes = \"legacy/*\"\n" ++
  "dump_dir = \"" ++ usualDumpDir ++ "\"\n" ++
  "# event_log = \"target/routecov-events.jsonl\"\n" ++
  "\n" ++
  "[layout]\n" ++
  "source_roots = [\"src/main/java\"]\n" ++
  "resource_roots = [\"src/main/resources\"]\n" ++
  "test_source_roots = [\"src/test/java\"]\n" ++
  "test_resource_roots = [\"src/test/resources\"]\n"

end SettingsFile

end RouteCoverage
