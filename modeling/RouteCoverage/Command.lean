import RouteCoverage.CommandLine.Usage
import RouteCoverage.Console
import RouteCoverage.Project
import RouteCoverage.Settings.Load

/-!
# The command

What the command does with its arguments and a file tree: what it writes, how it ends, and the
tree it leaves behind.
-/

namespace RouteCoverage.Command

open CommandLine (Options Refusal)

/-- What the command leaves behind. -/
structure Result where
  exit : Nat
  out : String
  err : String
  tree : FileTree

/-- How the command ends when its arguments are refused. -/
def usageExit : Nat := 2

/-- The wording of a refusal; requests for help are answered on the standard output. -/
def refusalText : Refusal → String
  | .unknownArgument => "unexpected argument found"
  | .invalidValue => "a value is required"
  | .tooManyValues => "unexpected value found"
  | .argumentConflict => "an argument cannot be used multiple times"
  | .help | .version => ""

/-- The result of what was written to the console. -/
def result (code : ExitCode) (console : Console) (tree : FileTree) : Result :=
  ⟨code.toNat, unlines console.out, unlines console.err, tree⟩

/-- Answers arguments that are not carried out. -/
def refuse (tree : FileTree) : Refusal → Result
  | .help => ⟨0, CommandLine.helpText, "", tree⟩
  | .version => ⟨0, CommandLine.versionText, "", tree⟩
  | r => ⟨usageExit, "", unlines ["error: " ++ refusalText r], tree⟩

/-- Writes a settings file. -/
def init (basedir : Path) (tree : FileTree) : Result :=
  match SettingsFile.create tree basedir with
  | .ok (true, tree) =>
      result .success (.info ("Created " ++ (SettingsFile.path basedir).text)) tree
  | .ok (false, tree) => result .success (.info (SettingsFile.name ++ " already exists")) tree
  | .error e => result .failure (.error e.message) tree

/-- What is written when the settings file of a project is ignored. -/
def settingsWarning (tree : FileTree) (basedir : Path) : Console :=
  match SettingsFile.find tree basedir with
  | some (.error fault) =>
      .warning ("ignoring " ++ (SettingsFile.path basedir).text ++ ": " ++ fault.message)
  | _ => .silent

/-- What is written before a run. -/
def opening (settings : Settings) : Console :=
  Console.detail settings.verbose
      ("Reading coverage dumps from " ++ settings.resolvedDumpDir.text) ++
    match settings.resolvedEventLog with
    | some log => .detail settings.verbose ("Writing run events to " ++ log.text)
    | none => .silent

/-- What is written after a run, and how the command ends. -/
def ending (settings : Settings) : Except RunError Summary → ExitCode × Console
  | .error e => (.failure, .error (": ".intercalate e.chain))
  | .ok summary =>
    let verdict := verdict settings.failOnError summary.notFullyCovered
    (.ofVerdict verdict, Console.summary settings.failOnError summary ++
      match verdict with
      | .ok _ => .silent
      | .error e => .error e.message)

variable [Dialect] [Source.Parser]

/-- Runs on a project with the settings in force. -/
def report (settings : Settings) (timestamp : Nat) (tree : FileTree) :
    ExitCode × Console × FileTree :=
  let (events, outcome) :=
    Run.run settings (Project.found settings tree) (Project.sources settings timestamp tree)
  let (code, last) := ending settings outcome
  (code, opening settings ++ .all (events.map (Console.event settings.verbose)) ++ last,
    Project.logged settings timestamp tree events)

/-- The settings in force: those of the project, overlaid by the options. -/
def settings (options : Options) (tree : FileTree) : Settings :=
  (Settings.load tree options.basedir).withOptions options

/-- Carries out the arguments at the given time. -/
def run (timestamp : Nat) (arguments : List String) (tree : FileTree) : Result :=
  match Options.ofArguments arguments with
  | .error r => refuse tree r
  | .ok options =>
    if options.init then init options.basedir tree
    else
      let (code, console, tree') := report (settings options tree) timestamp tree
      result code (settingsWarning tree options.basedir ++ console) tree'

/-! ### Places

What the command reads and writes lies at few places, so that its caller need not hold all files.
-/

/-- The places that decide the settings: the base directory of the project and its settings
file. -/
def settingsPlaces (arguments : List String) : Option (Path × Path) :=
  (Options.ofArguments arguments).toOption.map fun options =>
    (options.basedir, SettingsFile.path options.basedir)

/-- The settings of a run; none if the arguments ask for something else. -/
def runSettings (arguments : List String) (tree : FileTree) : Option Settings :=
  match Options.ofArguments arguments with
  | .ok options => if options.init then none else some (settings options tree)
  | .error _ => none

/-- The directories that a run looks into, for a tree that holds the settings file. -/
def runPlaces (arguments : List String) (tree : FileTree) : List Path :=
  match runSettings arguments tree with
  | some s => s.layout.declaredRoots ++ [s.resolvedDumpDir]
  | none => []

/-- The file that the arguments may change: the event log of a run, or a new settings file. -/
def changedPlace (arguments : List String) (tree : FileTree) : Option Path :=
  match runSettings arguments tree with
  | some s => s.resolvedEventLog
  | none => (settingsPlaces arguments).map (·.2)

/-- The result if the change cannot be kept: a run goes on without its log, but a settings file
that is not written is a failure. -/
def unsaved (arguments : List String) (message : String) (r : Result) : Result :=
  if (runSettings arguments r.tree).isSome then r else result .failure (.error message) r.tree

end RouteCoverage.Command
