import RouteCoverage.Pattern.Bracket

/-!
# Written regular expressions

Reads the written form of a regular expression.  The groups that are open are kept as a list,
the innermost first; each step reads one character, class, condition, repetition or bar, or
opens or closes a group.  An expression is refused if it is not well formed, if it nests more
than `depthLimit` deep, or if the dialect has no room for it.
-/

namespace RouteCoverage.Expression

/-- How deeply an expression may nest. -/
def depthLimit : Nat := 250

/-- The greatest number of a repetition. -/
def countLimit : Nat := 0xFFFFFFFF

/-- A list of alternatives that is still read: the finished ones, last first, and the items of
the current one, last first.  An item that only sets flags is `none`. -/
structure Level where
  finished : List Part
  items : List (Option Part)

/-- An open group that the current level stands in: the level around it, and the flags that hold
again after it. -/
structure Group where
  around : Level
  flags : Flags

/-- What has been read of an expression. -/
structure Progress where
  flags : Flags
  level : Level
  groups : List Group
  names : List (List Char)

namespace Level

def blank : Level := ⟨[], []⟩

def add (l : Level) (part : Part) : Level := { l with items := some part :: l.items }

/-- The items of the current alternative, one after another. -/
def sequence (l : Level) : Part :=
  match l.items.reverse with
  | [] | [none] => ⟨.empty, 0⟩
  | [some part] => part
  | items =>
    let parts := items.filterMap id
    ⟨.seqAll (parts.map (·.regex)), 1 + (parts.map (·.depth)).foldl max 0⟩

/-- Ends the current alternative at a bar. -/
def bar (l : Level) : Level := ⟨l.sequence :: l.finished, []⟩

/-- All alternatives together. -/
def toPart (l : Level) : Part :=
  match l.finished with
  | [] => l.sequence
  | finished =>
    let parts := (l.sequence :: finished).reverse
    ⟨.altAll (parts.map (·.regex)), 1 + (parts.map (·.depth)).foldl max 0⟩

/-- Repeats the last item; there has to be one, and it must not be one that sets flags. -/
def repeatLast? (least : Nat) (most : Option Nat) (l : Level) : Option Level :=
  match l.items with
  | some part :: items =>
    let repeated : Part := ⟨.times least most part.regex, 1 + part.depth⟩
    some { l with items := some repeated :: items }
  | _ => none

end Level

/-- Takes the digits that a text begins with; characters that are skipped may stand between them.
The rest is `back`, what stands behind the last digit; `comment` says whether a comment goes on. -/
def takeDigits (f : Flags) (back : List Char) (comment : Bool) :
    List Char → List Char × List Char
  | [] => ([], back)
  | c :: s =>
    if comment then takeDigits f back (c != '\n') s
    else if f.verbose && isBlank c then takeDigits f back false s
    else if f.verbose && c == '#' then takeDigits f back true s
    else if c.isDigit then
      let (digits, rest) := takeDigits f s false s
      (c :: digits, rest)
    else ([], back)

/-- Reads a number of at most `countLimit`; blanks may stand around it. -/
def count? (f : Flags) (s : List Char) : Option (Nat × List Char) := do
  let s := (f.skip s).dropWhile isBlank
  let (digits, rest) := takeDigits f s false s
  guard (digits ≠ [])
  let n := digits.foldl (fun n d => 10 * n + (d.toNat - '0'.toNat)) 0
  guard (n ≤ countLimit)
  return (n, rest.dropWhile isBlank)

/-- Reads an upper bound that is not below the lower one, and the brace behind it. -/
def most? (f : Flags) (least : Nat) (s : List Char) : Option ((Nat × Option Nat) × List Char) := do
  let (most, rest) ← count? f s
  guard (least ≤ most)
  guard ((f.skip rest).head? = some '}')
  return ((least, some most), (f.skip rest).tail)

/-- Reads the upper bound of a repetition, which may be left out, and the brace behind it. -/
def upperBound? (f : Flags) (least : Nat) (s : List Char) :
    Option ((Nat × Option Nat) × List Char) :=
  match f.skip s with
  | '}' :: rest => some ((least, none), rest)
  | _ => most? f least s

/-- Reads what stands behind the lower bound of a repetition. -/
def boundsFrom? (f : Flags) (least : Nat) (s : List Char) :
    Option ((Nat × Option Nat) × List Char) :=
  match f.skip s with
  | '}' :: rest => some ((least, some least), rest)
  | ',' :: rest => upperBound? f least rest
  | _ => none

/-- Reads the bounds of a repetition behind its brace. -/
def bounds? (f : Flags) (s : List Char) : Option ((Nat × Option Nat) × List Char) := do
  let (least, rest) ← count? f s
  boundsFrom? f least rest

/-- The rest behind a question mark that makes a repetition reluctant. -/
def reluctant : List Char → List Char
  | '?' :: s => s
  | s => s

/-- The rest behind such a question mark where blanks may stand before it. -/
def reluctantAfter (f : Flags) (s : List Char) : List Char :=
  match f.skip s with
  | '?' :: rest => rest
  | _ => s

variable [Dialect]

/-- Whether a character may stand in the name of a group. -/
def isNameChar (first : Bool) (c : Char) : Bool :=
  c == '_' || Dialect.alphabetic c ||
    (!first && (Dialect.numeric c || c == '.' || c == '[' || c == ']'))

/-- Whether a text is the name of a group. -/
def isName : List Char → Bool
  | [] => false
  | c :: name => isNameChar true c && name.all (isNameChar false)

/-- Reads the name of a group up to the bracket behind it. -/
def groupName? (s : List Char) : Option (List Char × List Char) := do
  let (name, rest) ← cutAt? '>' s
  guard (isName name)
  return (name, rest)

namespace Progress

/-- The state in which reading begins. -/
def start : Progress := ⟨.initial, .blank, [], []⟩

def add (p : Progress) (part : Part) : Progress := { p with level := p.level.add part }

def addSet (p : Progress) (chars : CharSet) : Progress := p.add ⟨.set chars, 0⟩

def addChar (p : Progress) (c : Char) : Progress := p.addSet (p.flags.char c)

def addLook (p : Progress) (condition : Look) : Progress := p.add ⟨.look condition, 0⟩

def addEscape (p : Progress) : Escape → Progress
  | .char c => p.addChar c
  | .set chars => p.addSet chars
  | .look condition => p.addLook condition

/-- Opens a group in which the given flags hold. -/
def openGroup (p : Progress) (flags : Flags) : Progress :=
  { p with flags, level := .blank, groups := ⟨p.level, p.flags⟩ :: p.groups }

/-- Opens a group with a name that no other group has. -/
def openNamed? (p : Progress) (s : List Char) : Option (Progress × List Char) := do
  let (name, rest) ← groupName? s
  guard (name ∉ p.names)
  return ({ p.openGroup p.flags with names := name :: p.names }, rest)

/-- The same behind the letter of the longer way to write it. -/
def openLettered? (p : Progress) (s : List Char) : Option (Progress × List Char) := do
  guard (s.head? = some '<')
  p.openNamed? s.tail

/-- Reads flags, for a group or for what follows. -/
def flagged? (p : Progress) (s : List Char) : Option (Progress × List Char) :=
  match p.flags.read? true [] s with
  | some (flags, _, ':' :: rest) => some (p.openGroup flags, rest)
  | some (flags, true, ')' :: rest) =>
    some ({ p with flags, level := { p.level with items := none :: p.level.items } }, rest)
  | _ => none

/-- Reads what stands behind an opening parenthesis and a question mark.  Look-around is refused,
since its signs belong to no name and are no flags. -/
def special? (p : Progress) (s : List Char) : Option (Progress × List Char) :=
  match s with
  | '<' :: s => p.openNamed? s
  | 'P' :: s => p.openLettered? s
  | s => p.flagged? s

/-- Reads what stands behind an opening parenthesis. -/
def parenthesis? (p : Progress) (s : List Char) : Option (Progress × List Char) :=
  match p.flags.skip s with
  | '?' :: s => p.special? s
  | _ => some (p.openGroup p.flags, s)

def closeGroup? (p : Progress) : Option Progress :=
  match p.groups with
  | [] => none
  | ⟨around, flags⟩ :: groups =>
    let part := p.level.toPart
    some { p with flags, level := around.add { part with depth := 1 + part.depth }, groups }

def repeatLast? (p : Progress) (least : Nat) (most : Option Nat) : Option Progress :=
  (p.level.repeatLast? least most).map fun level => { p with level }

/-- Reads the next item, which begins with `c`. -/
def step? (p : Progress) (c : Char) (s : List Char) : Option (Progress × List Char) :=
  match c with
  | '(' => p.parenthesis? s
  | ')' => p.closeGroup?.map fun p => (p, s)
  | '|' => some ({ p with level := p.level.bar }, s)
  | '[' => (Bracket.class? p.flags s).map fun (part, rest) =>
      (p.add ⟨.set part.chars, part.depth⟩, rest)
  | '?' => (p.repeatLast? 0 (some 1)).map (·, reluctant s)
  | '*' => (p.repeatLast? 0 none).map (·, reluctant s)
  | '+' => (p.repeatLast? 1 none).map (·, reluctant s)
  | '{' => do
    let ((least, most), rest) ← bounds? p.flags s
    (p.repeatLast? least most).map (·, reluctantAfter p.flags rest)
  | '\\' => (Escape.read? p.flags s).map fun (escape, rest) => (p.addEscape escape, rest)
  | '.' => p.flags.dot?.map fun chars => (p.addSet chars, s)
  | '^' => some (p.addLook p.flags.caret, s)
  | '$' => some (p.addLook p.flags.dollar, s)
  | c => some (p.addChar c, s)

/-- Reads items to the end of a text; each step takes at least one character. -/
def run? : Nat → Progress → List Char → Option Progress
  | 0, _, _ => none
  | fuel + 1, p, s =>
    match p.flags.skip s with
    | [] => some p
    | c :: s => do
      let (p, rest) ← p.step? c s
      run? fuel p rest

/-- The state behind the last item of a text. -/
def readAll? (p : Progress) (s : List Char) : Option Progress := run? (s.length + 1) p s

end Progress

/-- The part that a text writes. -/
def part? (s : List Char) : Option Part := do
  let p ← Progress.start.readAll? s
  guard p.groups.isEmpty
  return p.level.toPart

/-- The regular expression that a text writes. -/
def regex? (s : List Char) : Option Regex := do
  let part ← part? s
  guard (part.depth ≤ depthLimit && Dialect.fits s)
  return part.regex

end RouteCoverage.Expression
