/-!
# JSON

The values of JSON texts, written without blanks and read with them.  Texts escape quotes,
backslashes and control characters, so that a written value never holds a line feed.
-/

namespace RouteCoverage

/-- A JSON value.  Numbers other than natural ones are kept as they are written. -/
inductive Json where
  | null
  | boolean (b : Bool)
  | natural (n : Nat)
  | number (written : String)
  | text (s : String)
  | array (elements : List Json)
  | object (fields : List (String × Json))
deriving Repr, Inhabited

namespace Json

/-! ### Writing -/

/-- The hexadecimal digit of a number below sixteen. -/
def hexDigit (n : Nat) : Char :=
  if n < 10 then Char.ofNat ('0'.toNat + n) else Char.ofNat ('a'.toNat + (n - 10))

/-- How a character is written inside quotes. -/
def escape (c : Char) : List Char :=
  match c with
  | '"' => ['\\', '"']
  | '\\' => ['\\', '\\']
  | '\x08' => ['\\', 'b']
  | '\x0C' => ['\\', 'f']
  | '\n' => ['\\', 'n']
  | '\r' => ['\\', 'r']
  | '\t' => ['\\', 't']
  | c =>
    if c.toNat < 32 then ['\\', 'u', '0', '0', hexDigit (c.toNat / 16), hexDigit (c.toNat % 16)]
    else [c]

def quote (s : String) : String := "\"" ++ String.ofList (s.toList.flatMap escape) ++ "\""

mutual

/-- The written form of a value. -/
def render : Json → String
  | null => "null"
  | boolean b => if b then "true" else "false"
  | natural n => toString n
  | number written => written
  | text s => quote s
  | array elements => "[" ++ renderElements elements ++ "]"
  | object fields => "\x7b" ++ renderFields fields ++ "\x7d"

/-- The written forms of elements with commas between them. -/
def renderElements : List Json → String
  | [] => ""
  | [v] => render v
  | v :: vs => render v ++ "," ++ renderElements vs

/-- The written forms of fields with commas between them. -/
def renderFields : List (String × Json) → String
  | [] => ""
  | [(key, v)] => quote key ++ ":" ++ render v
  | (key, v) :: fields => quote key ++ ":" ++ render v ++ "," ++ renderFields fields

end

/-! ### Reading -/

def skipBlanks (s : List Char) : List Char :=
  s.dropWhile fun c => c == ' ' || c == '\t' || c == '\n' || c == '\r'

/-- The value of a hexadecimal digit. -/
def hexValue? (c : Char) : Option Nat :=
  if c.isDigit then some (c.toNat - '0'.toNat)
  else if 'a' ≤ c && c ≤ 'f' then some (c.toNat - 'a'.toNat + 10)
  else if 'A' ≤ c && c ≤ 'F' then some (c.toNat - 'A'.toNat + 10)
  else none

/-- The number that four hexadecimal digits write, and the rest. -/
def hex4? : List Char → Option (Nat × List Char)
  | a :: b :: c :: d :: s => do
    let digits := [← hexValue? a, ← hexValue? b, ← hexValue? c, ← hexValue? d]
    return (digits.foldl (fun n d => 16 * n + d) 0, s)
  | _ => none

/-- The character that a `\u` escape stands for, and the rest; one beyond the first plane is
written as two escapes. -/
def unicode? (s : List Char) : Option (Char × List Char) := do
  let (high, rest) ← hex4? s
  if 0xD800 ≤ high && high < 0xDC00 then
    match rest with
    | '\\' :: 'u' :: rest =>
      let (low, rest) ← hex4? rest
      guard (0xDC00 ≤ low && low < 0xE000)
      return (Char.ofNat (0x10000 + (high - 0xD800) * 0x400 + (low - 0xDC00)), rest)
    | _ => none
  else
    guard high.isValidChar
    return (Char.ofNat high, rest)

/-- The character that an escape stands for, and the rest behind it. -/
def escaped? : List Char → Option (Char × List Char)
  | '"' :: s => some ('"', s)
  | '\\' :: s => some ('\\', s)
  | '/' :: s => some ('/', s)
  | 'b' :: s => some ('\x08', s)
  | 'f' :: s => some ('\x0C', s)
  | 'n' :: s => some ('\n', s)
  | 'r' :: s => some ('\r', s)
  | 't' :: s => some ('\t', s)
  | 'u' :: s => unicode? s
  | _ => none

def readText? : Nat → List Char → List Char → Option (String × List Char)
  | 0, _, _ => none
  | fuel + 1, read, s =>
    match s with
    | [] => none
    | '"' :: s => some (String.ofList read.reverse, s)
    | '\\' :: s => do
      let (c, rest) ← escaped? s
      readText? fuel (c :: read) rest
    | c :: s => if c.toNat < 32 then none else readText? fuel (c :: read) s

/-- The digits that a text begins with, and the rest. -/
def digits (s : List Char) : List Char × List Char := s.span Char.isDigit

/-- Whether a text is the whole part of a number; only zero begins with a zero. -/
def isWhole : List Char → Bool
  | [] => false
  | ['0'] => true
  | '0' :: _ => false
  | _ => true

def readNumber? (s : List Char) : Option (Json × List Char) := do
  let unsigned := match s with
    | '-' :: s => s
    | s => s
  let (whole, rest) := digits unsigned
  guard (isWhole whole)
  let rest ← match rest with
    | '.' :: rest =>
      let (fraction, rest) := digits rest
      if fraction.isEmpty then none else some rest
    | rest => some rest
  let rest ← match rest with
    | 'e' :: rest | 'E' :: rest =>
      let unsigned := match rest with
        | '+' :: rest | '-' :: rest => rest
        | rest => rest
      let (exponent, rest) := digits unsigned
      if exponent.isEmpty then none else some rest
    | rest => some rest
  let written := s.take (s.length - rest.length)
  if written = whole then
    return (.natural (whole.foldl (fun n d => 10 * n + (d.toNat - '0'.toNat)) 0), rest)
  else return (.number (String.ofList written), rest)

/-- Reads the elements of an array behind its bracket or behind a comma. -/
def readElements? (read : List Char → Option (Json × List Char)) :
    Nat → List Char → Option (List Json × List Char)
  | 0, _ => none
  | fuel + 1, s => do
    let (first, rest) ← read (skipBlanks s)
    match skipBlanks rest with
    | ',' :: rest =>
      let (more, rest) ← readElements? read fuel rest
      return (first :: more, rest)
    | ']' :: rest => return ([first], rest)
    | _ => none

/-- Reads the fields of an object behind its brace or behind a comma. -/
def readFields? (read : List Char → Option (Json × List Char)) :
    Nat → List Char → Option (List (String × Json) × List Char)
  | 0, _ => none
  | fuel + 1, s =>
    match skipBlanks s with
    | '"' :: s => do
      let (key, rest) ← readText? (s.length + 1) [] s
      match skipBlanks rest with
      | ':' :: rest =>
        let (value, rest) ← read (skipBlanks rest)
        match skipBlanks rest with
        | ',' :: rest =>
          let (more, rest) ← readFields? read fuel rest
          return ((key, value) :: more, rest)
        | '}' :: rest => return ([(key, value)], rest)
        | _ => none
      | _ => none
    | _ => none

/-- The rest behind a word, if it comes first. -/
def dropWord? (word : String) (s : List Char) : Option (List Char) :=
  if word.toList.isPrefixOf s then some (s.drop word.length) else none

/-- Reads a value; arrays and objects may nest `depth` deep. -/
def readValue? : Nat → List Char → Option (Json × List Char)
  | _, '"' :: s => (readText? (s.length + 1) [] s).map fun (t, rest) => (.text t, rest)
  | depth + 1, '[' :: s =>
    match skipBlanks s with
    | ']' :: rest => some (.array [], rest)
    | _ => (readElements? (readValue? depth) (s.length + 1) s).map fun (elements, rest) =>
        (.array elements, rest)
  | depth + 1, '{' :: s =>
    match skipBlanks s with
    | '}' :: rest => some (.object [], rest)
    | _ => (readFields? (readValue? depth) (s.length + 1) s).map fun (fields, rest) =>
        (.object fields, rest)
  | _, s =>
    (((dropWord? "null" s).map (null, ·)).or ((dropWord? "true" s).map (boolean true, ·))).or
      (((dropWord? "false" s).map (boolean false, ·)).or (readNumber? s))

/-- How deeply values may nest. -/
def nestingLimit : Nat := 127

/-- The value that a whole text writes. -/
def read? (s : String) : Option Json :=
  match readValue? nestingLimit (skipBlanks s.toList) with
  | some (value, rest) => if (skipBlanks rest).isEmpty then some value else none
  | none => none

end Json

end RouteCoverage
