import RouteCoverage.Pattern.Dialect
import RouteCoverage.Text.Blank

/-!
# Flags of regular expressions

The flags that change how the written form of an expression is understood from some place on,
and what the characters and the usual classes of characters mean under them.
-/

namespace RouteCoverage

/-- The flags in force at a place of an expression. -/
structure Flags where
  /-- letters match all their case variants -/
  caseless : Bool
  /-- `^` and `$` match at the ends of lines -/
  multiLine : Bool
  /-- `.` matches line ends -/
  dotAll : Bool
  /-- lines may end in carriage returns -/
  crlf : Bool
  /-- classes and case variants go beyond ASCII -/
  unicode : Bool
  /-- blanks and comments are skipped -/
  verbose : Bool
deriving DecidableEq, Repr, Inhabited

/-- A part of an expression: what it matches, and how deeply it nests. -/
structure Part where
  regex : Regex
  depth : Nat

/-- The rest of a text in which blanks and comments up to the end of their line are skipped. -/
def skipBlank (comment : Bool) : List Char → List Char
  | [] => []
  | c :: s =>
    if comment then skipBlank (c != '\n') s
    else if isBlank c then skipBlank false s
    else if c = '#' then skipBlank true s
    else c :: s

namespace Flags

/-- The flags that an expression begins with. -/
def initial : Flags := ⟨false, false, false, false, true, false⟩

/-- The rest of a text from its next significant character on. -/
def skip (f : Flags) (s : List Char) : List Char := if f.verbose then skipBlank false s else s

/-- The next significant character, as a hyphen looks ahead for it: blanks and the sign of a comment
are passed over, but the text of a comment is not. -/
def peek (f : Flags) (s : List Char) : Option Char :=
  if f.verbose then
    match s.dropWhile isBlank with
    | '#' :: s => (s.dropWhile isBlank).head?
    | s => s.head?
  else s.head?

/-- What a dot matches; without Unicode it would match parts of characters, which is refused. -/
def dot? (f : Flags) : Option CharSet :=
  if !f.unicode then none
  else if f.dotAll then some fun _ => true
  else if f.crlf then some fun c => c != '\n' && c != '\r'
  else some (· != '\n')

/-- The complement of a set; without Unicode it would hold parts of characters, which is
refused. -/
def complement? (f : Flags) (set : CharSet) : Option CharSet :=
  if f.unicode then some fun c => !set c else none

def blank (f : Flags) : CharSet :=
  if f.unicode then isBlank else fun c => isBlank c && c.toNat < 128

/-- The condition that `^` stands for. -/
def caret (f : Flags) : Look := if f.multiLine then .lineStart f.crlf else .textStart

/-- The condition that `$` stands for. -/
def dollar (f : Flags) : Look := if f.multiLine then .lineEnd f.crlf else .textEnd

/-- The flags once the flag with the given letter is switched; `none` for an unknown letter.
Greediness is known, but changes no place where an expression matches. -/
def switch? (f : Flags) (letter : Char) (on : Bool) : Option Flags :=
  match letter with
  | 'i' => some { f with caseless := on }
  | 'm' => some { f with multiLine := on }
  | 's' => some { f with dotAll := on }
  | 'R' => some { f with crlf := on }
  | 'u' => some { f with unicode := on }
  | 'x' => some { f with verbose := on }
  | 'U' => some f
  | _ => none

/-- Reads a list of flags up to the colon or the parenthesis after it: the new flags, whether
any flag was given, and the rest from that character on.  A flag may be named once, and a minus
sign, which switches all flags after it off, may stand once and not last. -/
def read? (f : Flags) (on : Bool) (seen : List Char) :
    List Char → Option (Flags × Bool × List Char)
  | [] => none
  | c :: s =>
    if c = ':' || c = ')' then
      if seen.head? = some '-' then none else some (f, !seen.isEmpty, c :: s)
    else if c ∈ seen then none
    else if c = '-' then read? f false (c :: seen) s
    else match f.switch? c on with
      | some f => read? f on (c :: seen) s
      | none => none

variable [Dialect]

/-- The characters that differ from `c` at most in case. -/
def variants (f : Flags) (c : Char) : List Char :=
  if f.unicode then Dialect.variants c else [c, c.toLower, c.toUpper]

/-- A set together with all case variants, if the flags ask for them. -/
def fold (f : Flags) (set : CharSet) : CharSet :=
  if f.caseless then fun c => set c || (f.variants c).any set else set

/-- What a character matches. -/
def char (f : Flags) (c : Char) : CharSet := f.fold (· == c)

/-- A set with its case variants, or what is outside of them. -/
def class? (f : Flags) (negated : Bool) (set : CharSet) : Option CharSet :=
  if negated then f.complement? (f.fold set) else some (f.fold set)

def digit (f : Flags) : CharSet := if f.unicode then Dialect.decimal else Char.isDigit

def word (f : Flags) : CharSet :=
  if f.unicode then Dialect.word else fun c => c.isAlphanum || c == '_'

end Flags

end RouteCoverage
