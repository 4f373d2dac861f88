import RouteCoverage.Pattern.Flags
import RouteCoverage.Text.Split

/-!
# Escapes

What a backslash and the characters after it stand for in a regular expression: a character, a
class of characters, or a condition on a place.
-/

namespace RouteCoverage

/-- What an escape stands for. -/
inductive Escape where
  /-- a character -/
  | char (c : Char)
  /-- a class of characters -/
  | set (chars : CharSet)
  /-- a condition on a place -/
  | look (condition : Look)

namespace Escape

def hexValue (digits : List Char) : Nat :=
  digits.foldl (fun n d =>
    16 * n + (if d.isDigit then d.toNat - '0'.toNat else d.toLower.toNat - 'a'.toNat + 10)) 0

/-- Whether a character is a hexadecimal digit. -/
def isHexDigit (c : Char) : Bool :=
  c.isDigit || ('a' ≤ c && c ≤ 'f') || ('A' ≤ c && c ≤ 'F')

/-- The character with the given number, if there is one. -/
def charOfNat? (n : Nat) : Option Char :=
  if n.isValidChar then some (Char.ofNat n) else none

/-- Reads `n` digits; skipped characters may stand between them. -/
def digits? (f : Flags) : Nat → List Char → Option (List Char × List Char)
  | 0, s => some ([], s)
  | n + 1, s =>
    match f.skip s with
    | c :: s =>
      if isHexDigit c then (digits? f n s).map fun (ds, rest) => (c :: ds, rest) else none
    | [] => none

/-- Reads a name up to the brace that closes it.  Where blanks and comments are skipped, none of
them belongs to the name; `comment` says whether a comment goes on. -/
def nameUpTo? (f : Flags) (comment : Bool) : List Char → Option (List Char × List Char)
  | [] => none
  | c :: s =>
    if comment then nameUpTo? f (c != '\n') s
    else if f.verbose && isBlank c then nameUpTo? f false s
    else if f.verbose && c == '#' then nameUpTo? f true s
    else if c = '}' then some ([], s)
    else (nameUpTo? f false s).map fun (name, rest) => (c :: name, rest)

/-- Reads a name in braces from behind the opening one. -/
def bracedName? (f : Flags) : List Char → Option (List Char × List Char) := nameUpTo? f false

/-- Reads a character by the digits of its number in braces. -/
def numberedInBraces? (f : Flags) (s : List Char) : Option (Escape × List Char) := do
  let (name, rest) ← bracedName? f s
  guard (name ≠ [] ∧ name.all isHexDigit)
  return (.char (← charOfNat? (hexValue name)), rest)

/-- Reads a character by the `width` digits of its number. -/
def numberedByDigits? (f : Flags) (width : Nat) (s : List Char) :
    Option (Escape × List Char) := do
  let (digits, rest) ← digits? f width s
  let c ← charOfNat? (hexValue digits)
  guard (f.unicode || width ≠ 2 || c.toNat < 128)
  return (.char c, rest)

/-- Reads a character by its number: digits in braces, or as many digits as the letter of the
escape says. -/
def numbered? (f : Flags) (letter : Char) (s : List Char) : Option (Escape × List Char) :=
  match f.skip s with
  | '{' :: s => numberedInBraces? f s
  | _ => numberedByDigits? f (if letter = 'x' then 2 else if letter = 'u' then 4 else 8) s

/-- Reads the name of a property: one letter, or a name in braces. -/
def propertyName? (f : Flags) (s : List Char) : Option (List Char × List Char) :=
  match f.skip s with
  | [] => none
  | c :: s =>
    if c = '{' then bracedName? f s
    else if c = '\\' then none
    else some ([c], s)

def edgeNamed? (name : List Char) : Option WordEdge :=
  match String.ofList name with
  | "start" => some .start
  | "end" => some .stop
  | "start-half" => some .startHalf
  | "end-half" => some .stopHalf
  | _ => none

/-- What stands before the first `!=` of a text, and what stands behind it. -/
def cutAtUnequal? : List Char → Option (List Char × List Char)
  | '!' :: '=' :: s => some ([], s)
  | c :: s => (cutAtUnequal? s).map fun (before, after) => (c :: before, after)
  | [] => none

variable [Dialect]

/-- The set that a name stands for, and whether its complement is meant: the name of a property, or
that of a property and of a value that it has or has not. -/
def property? (name : List Char) : Option (CharSet × Bool) :=
  match cutAtUnequal? name with
  | some (property, value) => (Dialect.propertyValue? property value).map (·, true)
  | none =>
    match (cutAt? ':' name).or (cutAt? '=' name) with
    | some (property, value) => (Dialect.propertyValue? property value).map (·, false)
    | none => (Dialect.property? name).map (·, false)

/-- Reads the name of a property as the set that it stands for. -/
def named? (f : Flags) (negated : Bool) (s : List Char) : Option (Escape × List Char) := do
  guard f.unicode
  let (name, rest) ← propertyName? f s
  let (chars, unequal) ← property? name
  let chars := f.fold chars
  return (.set (if negated != unequal then fun c => !chars c else chars), rest)

/-- Reads the name of a word edge behind its brace. -/
def namedEdge? (f : Flags) (s : List Char) : Option (Escape × List Char) := do
  let (name, rest) ← bracedName? f s
  return (.look (.edge (← edgeNamed? name) f.word), rest)

/-- Reads what stands in braces after the escape of a word edge.  Braces that do not begin with
a letter or a hyphen belong to a repetition and are left. -/
def edge? (f : Flags) (s : List Char) : Option (Escape × List Char) :=
  match s with
  | '{' :: inside =>
    if (f.skip inside).head?.any fun c => c.isAlpha || c == '-' then namedEdge? f inside
    else some (.look (.edge .any f.word), s)
  | _ => some (.look (.edge .any f.word), s)

/-- Whether a backslash before a character that has a meaning of no kind is harmless. -/
def isPlain (c : Char) : Bool :=
  c.toNat < 128 && !c.isAlphanum && c != '<' && c != '>'

def read? (f : Flags) : List Char → Option (Escape × List Char)
  | [] => none
  | c :: s =>
    match c with
    | 'x' | 'u' | 'U' => numbered? f c s
    | 'p' => named? f false s
    | 'P' => named? f true s
    | 'b' => edge? f s
    | 'D' => do return (.set (← f.complement? f.digit), s)
    | 'S' => do return (.set (← f.complement? f.blank), s)
    | 'W' => do return (.set (← f.complement? f.word), s)
    | 'd' => some (.set f.digit, s)
    | 's' => some (.set f.blank, s)
    | 'w' => some (.set f.word, s)
    | 'a' => some (.char '\x07', s)
    | 'f' => some (.char '\x0C', s)
    | 't' => some (.char '\t', s)
    | 'n' => some (.char '\n', s)
    | 'r' => some (.char '\r', s)
    | 'v' => some (.char '\x0B', s)
    | 'A' => some (.look .textStart, s)
    | 'z' => some (.look .textEnd, s)
    | 'B' => some (.look (.edge .none f.word), s)
    | '<' => some (.look (.edge .start f.word), s)
    | '>' => some (.look (.edge .stop f.word), s)
    | c => if isPlain c then some (.char c, s) else none

end Escape

end RouteCoverage
