import RouteCoverage.Files.Path

/-!
# Options of the command line

Reads the arguments of the command line from left to right.  An option that waits for its value
is settled, and so found to be faulty, only when the next known option is met or the arguments
end; an argument that is not known at all is reported first.
-/

namespace RouteCoverage.CommandLine

/-- What the command line asks for. -/
structure Options where
  basedir : Path
  failOnError : Bool
  includeTest : Bool
  includes : Option String
  excludes : Option String
  dumpDir : Option Path
  events : Option Path
  verbose : Bool
  init : Bool
deriving DecidableEq, Repr, Inhabited

/-- Why the arguments are not carried out. -/
inductive Refusal where
  | unknownArgument
  /-- a value is missing or empty -/
  | invalidValue
  /-- a flag has a value -/
  | tooManyValues
  /-- an option is repeated -/
  | argumentConflict
  /-- the help text is asked for -/
  | help
  /-- the version is asked for -/
  | version
deriving DecidableEq, Repr

/-- The options by name. -/
inductive Name where
  | basedir
  | failOnError
  | includeTest
  | includes
  | excludes
  | dumpDir
  | events
  | verbose
  | init
  | help
  | version
deriving DecidableEq, Repr

namespace Name

def ofLong? : String → Option Name
  | "basedir" => some basedir
  | "fail-on-error" => some failOnError
  | "include-test" => some includeTest
  | "includes" => some includes
  | "excludes" => some excludes
  | "dump-dir" => some dumpDir
  | "events" => some events
  | "verbose" => some verbose
  | "init" => some init
  | "help" => some help
  | "version" => some version
  | _ => none

def ofShort? : Char → Option Name
  | 'v' => some verbose
  | 'h' => some help
  | 'V' => some version
  | _ => none

def hasValue : Name → Bool
  | basedir | includes | excludes | dumpDir | events => true
  | _ => false

/-- Whether the value of an option is a path, which must not be empty. -/
def isPath : Name → Bool
  | basedir | dumpDir | events => true
  | _ => false

end Name

namespace Options

/-- What an empty command line asks for. -/
def unset : Options :=
  { basedir := ⟨"."⟩, failOnError := false, includeTest := false, includes := none
    excludes := none, dumpDir := none, events := none, verbose := false, init := false }

/-- Gives an option its value; flags have none. -/
def set (o : Options) (name : Name) (value : String) : Options :=
  match name with
  | .basedir => { o with basedir := ⟨value⟩ }
  | .failOnError => { o with failOnError := true }
  | .includeTest => { o with includeTest := true }
  | .includes => { o with includes := some value }
  | .excludes => { o with excludes := some value }
  | .dumpDir => { o with dumpDir := some ⟨value⟩ }
  | .events => { o with events := some ⟨value⟩ }
  | .verbose => { o with verbose := true }
  | .init => { o with init := true }
  | .help | .version => o

end Options

/-- What has been read of the arguments: the options given, their names, and the option met
last, if it is not settled yet, with the value that was found for it. -/
structure Progress where
  options : Options
  given : List Name
  pending : Option (Name × Option String)
deriving Inhabited

namespace Progress

/-- Takes an option that is known to have the value it needs. -/
def give (p : Progress) (name : Name) (value : String) : Except Refusal Progress :=
  if name ∈ p.given then .error .argumentConflict
  else if name.isPath && value.isEmpty then .error .invalidValue
  else .ok { p with options := p.options.set name value, given := name :: p.given }

/-- Settles the option met last. -/
def settle (p : Progress) : Except Refusal Progress :=
  match p.pending with
  | none => .ok p
  | some (_, none) => .error .invalidValue
  | some (name, some value) => { p with pending := none }.give name value

def flag (p : Progress) (name : Name) : Except Refusal Progress := do
  let p ← p.settle
  match name with
  | .help => throw .help
  | .version => throw .version
  | name => p.give name ""

/-- Takes a long option; `attached` is the text behind its equals sign. -/
def long (p : Progress) (text : String) (attached : Option String) : Except Refusal Progress :=
  match Name.ofLong? text, attached with
  | none, _ => .error .unknownArgument
  | some name, attached =>
    if name.hasValue then do
      let p ← p.settle
      match attached with
      | some value => p.give name value
      | none => return { p with pending := some (name, none) }
    else if attached.isSome then .error .tooManyValues
    else p.flag name

/-- Takes a cluster of short options. -/
def short (p : Progress) : List Char → Except Refusal Progress
  | [] => .ok p
  | c :: cs =>
    match Name.ofShort? c with
    | none => .error .unknownArgument
    | some name => do short (← p.flag name) cs

def argument (p : Progress) (text : String) : Except Refusal Progress :=
  match text.toList with
  | '-' :: '-' :: rest =>
    let name := rest.takeWhile (· != '=')
    let attached := match rest.drop name.length with
      | _ :: value => some (String.ofList value)
      | [] => none
    p.long (String.ofList name) attached
  | '-' :: c :: cs => p.short (c :: cs)
  | _ =>
    match p.pending with
    | some (name, none) => .ok { p with pending := some (name, some text) }
    | _ => .error .unknownArgument

/-- Takes all arguments; nothing may follow two hyphens. -/
def arguments (p : Progress) : List String → Except Refusal Progress
  | [] => p.settle
  | "--" :: [] => p.settle
  | "--" :: _ :: _ => .error .unknownArgument
  | text :: rest => do arguments (← p.argument text) rest

end Progress

def Options.ofArguments (arguments : List String) : Except Refusal Options :=
  (Progress.arguments ⟨.unset, [], none⟩ arguments).map (·.options)

end RouteCoverage.CommandLine
