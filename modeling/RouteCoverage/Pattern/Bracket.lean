import RouteCoverage.Pattern.Escape
import RouteCoverage.Text.Split

/-!
# Classes in brackets

A class in brackets lists characters, ranges, escapes and further classes; the operators `&&`,
`--` and `~~` combine what stands left of them with what follows, from left to right.  The
brackets that are open are kept as a list, the innermost first; each step reads one member, one
operator or one bracket.
-/

namespace RouteCoverage

/-- A part of a class: its characters, and how deeply it nests. -/
structure ClassPart where
  chars : CharSet
  depth : Nat

/-- The ways to combine two classes. -/
inductive ClassOperator where
  | intersection
  | difference
  | symmetricDifference
deriving DecidableEq, Repr

/-- A bracket that is still open: the members since the last operator, last first, and what
stands left of that operator.  It is fresh while it holds nothing but hyphens. -/
structure Bracket where
  negated : Bool
  fresh : Bool
  members : List ClassPart
  pending : Option (ClassPart × ClassOperator)

/-- The operator that a doubled character stands for. -/
def ClassOperator.ofChar? : Char → Option ClassOperator
  | '&' => some .intersection
  | '-' => some .difference
  | '~' => some .symmetricDifference
  | _ => none

namespace ClassPart

/-- A part that names its characters directly. -/
def leaf (chars : CharSet) : ClassPart := ⟨chars, 0⟩

/-- The part that several members make up together. -/
def union : List ClassPart → ClassPart
  | [] => leaf fun _ => false
  | [part] => part
  | parts => ⟨fun c => parts.any (·.chars c), 1 + (parts.map depth).foldl max 0⟩

def ascii? (name : List Char) : Option CharSet :=
  match String.ofList name with
  | "alnum" => some Char.isAlphanum
  | "alpha" => some Char.isAlpha
  | "ascii" => some fun c => c.toNat < 128
  | "blank" => some fun c => c == ' ' || c == '\t'
  | "cntrl" => some fun c => c.toNat < 32 || c.toNat == 127
  | "digit" => some Char.isDigit
  | "graph" => some fun c => 33 ≤ c.toNat && c.toNat ≤ 126
  | "lower" => some Char.isLower
  | "print" => some fun c => 32 ≤ c.toNat && c.toNat ≤ 126
  | "punct" => some fun c => 33 ≤ c.toNat && c.toNat ≤ 126 && !c.isAlphanum
  | "space" => some fun c => isBlank c && c.toNat < 128
  | "upper" => some Char.isUpper
  | "word" => some fun c => c.isAlphanum || c == '_'
  | "xdigit" => some Escape.isHexDigit
  | _ => none

/-- Reads the name of an ASCII class up to its end. -/
def readAsciiName? (negated : Bool) (s : List Char) : Option ((CharSet × Bool) × List Char) := do
  let (name, rest) ← cutAt? ':' s
  guard (rest.head? = some ']')
  return ((← ascii? name, negated), rest.tail)

/-- Reads the name of an ASCII class, which a caret negates. -/
def readAsciiClass? : List Char → Option ((CharSet × Bool) × List Char)
  | '^' :: s => readAsciiName? true s
  | s => readAsciiName? false s

/-- Reads an ASCII class such as `[:alpha:]` behind its bracket. -/
def readAscii? : List Char → Option ((CharSet × Bool) × List Char)
  | ':' :: s => readAsciiClass? s
  | _ => none

/-- Whether a character may be a member: without Unicode, an ASCII character only. -/
def admits (f : Flags) (c : Char) : Bool := f.unicode || c.toNat < 128

/-- What follows the hyphen of a range; a hyphen before another one or before the end of the
bracket makes no range. -/
def rangeEnd? (f : Flags) (s : List Char) : Option (List Char) :=
  match f.skip s with
  | '-' :: s => if f.peek s = some ']' ∨ f.peek s = some '-' then none else some (f.skip s)
  | _ => none

variable [Dialect]

/-- Two parts, combined by an operator after the case variants are added to each of them. -/
def combine (f : Flags) (op : ClassOperator) (left right : ClassPart) : ClassPart :=
  let (l, r) := (f.fold left.chars, f.fold right.chars)
  { chars := match op with
      | .intersection => fun c => l c && r c
      | .difference => fun c => l c && !r c
      | .symmetricDifference => fun c => l c != r c
    depth := 1 + max left.depth right.depth }

/-- Reads a character or an escape that begins with `c`. -/
def item? (f : Flags) (c : Char) (s : List Char) : Option (Escape × List Char) :=
  if c = '\\' then Escape.read? f s else some (.char c, s)

/-- Reads the end of a range that begins with `lo`. -/
def readRange? (f : Flags) (lo : Char) (s : List Char) : Option (ClassPart × List Char) :=
  match s with
  | [] => none
  | c :: s => do
    let (last, rest) ← item? f c s
    match last with
    | .char hi =>
      guard (lo ≤ hi && admits f lo && admits f hi)
      return (leaf fun c => lo ≤ c && c ≤ hi, rest)
    | _ => none

/-- Reads on after the first item of a member, which may begin a range. -/
def readAfter? (f : Flags) (first : Escape) (s : List Char) : Option (ClassPart × List Char) :=
  match first, rangeEnd? f s with
  | .char lo, some s => readRange? f lo s
  | .char c, none => do
    guard (admits f c)
    return (leaf (· == c), s)
  | .set chars, none => some (leaf chars, s)
  | _, _ => none

/-- Reads one member that begins with `c`: a character, a range of characters, or a class. -/
def read? (f : Flags) (c : Char) (s : List Char) : Option (ClassPart × List Char) := do
  let (first, rest) ← item? f c s
  readAfter? f first rest

end ClassPart

namespace Bracket

/-- How far reading in brackets has come: it stands in a bracket with others around it, or the
outermost one is closed. -/
inductive Progress where
  | inside (b : Bracket) (outer : List Bracket)
  | done (part : ClassPart)

def add (b : Bracket) (part : ClassPart) : Bracket :=
  { b with fresh := false, members := part :: b.members }

def addHyphen (b : Bracket) : Bracket := { b.add (.leaf (· == '-')) with fresh := true }

/-- The bracket that begins behind `[`, and the rest after the caret that negates it. -/
def begin (f : Flags) (s : List Char) : Bracket × List Char :=
  match f.skip s with
  | '^' :: rest => (⟨true, true, [], none⟩, rest)
  | _ => (⟨false, true, [], none⟩, s)

variable [Dialect]

/-- All that a bracket holds so far, as one part. -/
def content (f : Flags) (b : Bracket) : ClassPart :=
  let last := ClassPart.union b.members.reverse
  match b.pending with
  | some (left, op) => ClassPart.combine f op left last
  | none => last

/-- Puts what a bracket holds to the left of an operator. -/
def operator (f : Flags) (op : ClassOperator) (b : Bracket) : Bracket :=
  { b with fresh := false, members := [], pending := some (b.content f, op) }

def close? (f : Flags) (b : Bracket) : Option ClassPart := do
  let content := b.content f
  return { content with chars := ← f.class? b.negated content.chars, depth := 1 + content.depth }

/-- Reads what begins with `[` inside a bracket: an ASCII class, or another bracket. -/
def open? (f : Flags) (b : Bracket) (outer : List Bracket) (s : List Char) :
    Option (Progress × List Char) :=
  match ClassPart.readAscii? s with
  | some ((chars, negated), rest) => do
    return (.inside (b.add (.leaf (← f.class? negated chars))) outer, rest)
  | none =>
    let (inner, rest) := begin f s
    some (.inside inner (b :: outer), rest)

/-- Closes a bracket.  A closing bracket that comes first stands for itself. -/
def closed? (f : Flags) (b : Bracket) (outer : List Bracket) : Option Progress :=
  if b.fresh && b.members.isEmpty then some (.inside (b.add (.leaf (· == ']'))) outer)
  else
    (b.close? f).map fun part =>
      match outer with
      | [] => .done part
      | next :: outer => .inside (next.add part) outer

/-- Reads a member that begins with `c`. -/
def member? (f : Flags) (b : Bracket) (outer : List Bracket) (c : Char) (s : List Char) :
    Option (Progress × List Char) := do
  let (part, rest) ← ClassPart.read? f c s
  return (.inside (b.add part) outer, rest)

/-- Reads the next thing inside a bracket `b` that stands in the brackets `outer`; it begins with
`c`. -/
def step? (f : Flags) (b : Bracket) (outer : List Bracket) (c : Char) (s : List Char) :
    Option (Progress × List Char) :=
  match c with
  | '[' => b.open? f outer s
  | ']' => do return (← b.closed? f outer, s)
  | c =>
    if c = '-' ∧ b.fresh then some (.inside b.addHyphen outer, s)
    else
      match ClassOperator.ofChar? c with
      | some op =>
        if s.head? = some c then some (.inside (b.operator f op) outer, s.tail)
        else b.member? f outer c s
      | none => b.member? f outer c s

/-- Reads the inside of a bracket `b` that stands in the brackets `outer`, up to the end of the
outermost one; each step takes at least one character. -/
def read? (f : Flags) :
    Nat → Bracket → List Bracket → List Char → Option (ClassPart × List Char)
  | 0, _, _, _ => none
  | fuel + 1, b, outer, s =>
    match f.skip s with
    | [] => none
    | c :: s =>
      match b.step? f outer c s with
      | some (.inside b outer, rest) => read? f fuel b outer rest
      | some (.done part, rest) => some (part, rest)
      | none => none

/-- Reads a class in brackets from behind its first bracket. -/
def class? (f : Flags) (s : List Char) : Option (ClassPart × List Char) :=
  let (b, rest) := begin f s
  read? f (rest.length + 1) b [] rest

end Bracket

end RouteCoverage
