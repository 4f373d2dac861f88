import RouteCoverage.Document.Text

/-!
# Reading documents

A document is read line by line: a line is empty, gives a key a value, or is the header of a
table that the following keys belong to.  Lists may span lines, tables in braces may not.
-/

namespace RouteCoverage.Document

open Text

/-- What reads a part of a document from the front of a text. -/
abbrev Reader (α : Type) := List Char → Option (α × List Char)

/-- How deeply values may nest. -/
def nestingLimit : Nat := 79

/-- The characters of keys without quotes. -/
def isBareKeyChar (c : Char) : Bool := c.isAlphanum || c == '_' || c == '-'

def keyPart? : Reader String
  | '"' :: s => (line? '"' (s.length + 1) [] s).map fun (text, rest) => (String.ofList text, rest)
  | '\'' :: s => (line? '\'' (s.length + 1) [] s).map fun (text, rest) => (String.ofList text, rest)
  | s =>
    let key := s.takeWhile isBareKeyChar
    if key = [] then none else some (String.ofList key, s.drop key.length)

/-- Reads the parts of a key, which are joined by dots; the last part comes last. -/
def keyParts? : Nat → Reader (List String)
  | 0, _ => none
  | fuel + 1, s => do
    let (part, rest) ← keyPart? (skipBlanks s)
    match skipBlanks rest with
    | '.' :: rest =>
      let (parts, rest) ← keyParts? fuel rest
      return (part :: parts, rest)
    | rest => return ([part], rest)

/-- Reads a key: the path to its last part, and that part. -/
def key? : Reader (List String × String) := fun s => do
  let (parts, rest) ← keyParts? nestingLimit s
  return ((parts.dropLast, ← parts.getLast?), rest)

/-- The rest behind a comment, if one comes next. -/
def skipComment : List Char → List Char
  | '#' :: s => s.dropWhile isPrintable
  | s => s

/-- The rest behind blanks, line ends and comments. -/
def skipAll : Nat → List Char → List Char
  | 0, s => s
  | fuel + 1, s =>
    let s := skipComment (skipBlanks s)
    match newline? s with
    | some rest => skipAll fuel rest
    | none => s

def entry? (value : Reader Value) : Reader (List String × String × Value) := fun s => do
  let ((path, key), rest) ← key? s
  match rest with
  | '=' :: rest =>
    let (value, rest) ← value (skipBlanks rest)
    return ((path, key, value), rest)
  | _ => none

/-- Reads the elements of a list up to its closing bracket. -/
def elements? (value : Reader Value) : Nat → Reader (List Value)
  | 0, _ => none
  | fuel + 1, s => do
    let skip (s : List Char) : List Char := skipAll (s.length + 1) s
    match skip s with
    | ']' :: rest => return ([], rest)
    | s =>
      let (first, rest) ← value s
      match skip rest with
      | ',' :: rest =>
        let (more, rest) ← elements? value fuel rest
        return (first :: more, rest)
      | ']' :: rest => return ([first], rest)
      | _ => none

/-- Reads the entries of a table in braces up to its closing brace. -/
def entries? (value : Reader Value) : Nat → Entries → Reader Entries
  | 0, _, _ => none
  | fuel + 1, entries, s => do
    let ((path, key, value'), rest) ← entry? value s
    let (_, entries) ← Entries.addValue path key value' .inline entries
    match skipBlanks rest with
    | ',' :: rest => entries? value fuel entries rest
    | '}' :: rest => return (entries, rest)
    | _ => none

/-- Reads a value; lists and tables in braces may nest `depth` deep. -/
def value? : Nat → Reader Value
  | _, '"' :: s => (Text.read? '"' s).map fun (text, rest) => (.text (String.ofList text), rest)
  | _, '\'' :: s =>
    (Text.read? '\'' s).map fun (text, rest) => (.text (String.ofList text), rest)
  | 0, '[' :: _ | 0, '{' :: _ => none
  | depth + 1, '[' :: s =>
    (elements? (value? depth) (s.length + 1) s).map fun (elements, rest) => (.array elements, rest)
  | depth + 1, '{' :: s =>
    match skipBlanks s with
    | '}' :: rest => some (.table .inline [], rest)
    | s =>
      (entries? (value? depth) (s.length + 1) [] s).map fun (entries, rest) =>
        (.table .inline entries, rest)
  | _, s => Scalar.read? s

/-- A document as far as it is read: its tables, and the path of the last header. -/
structure Progress where
  root : Entries
  header : List String
deriving Inhabited

namespace Progress

/-- Adds a key of the table with the last header. -/
def addValue (p : Progress) (path : List String) (key : String) (value : Value) :
    Option Progress := do
  let (_, root) ← Entries.editAt false (Entries.addValue path key value) p.header .header p.root
  return { p with root }

def addHeader (p : Progress) (path : List String) (key : String) (isElement : Bool) :
    Option Progress := do
  let edit := if isElement then Entries.addElement key else Entries.addTable key
  let (_, root) ← Entries.editAt false edit path .header p.root
  return ⟨root, path ++ [key]⟩

/-- Reads what stands on a line before its end. -/
def line? (p : Progress) : Reader Progress
  | '[' :: '[' :: s => do
    let ((path, key), rest) ← key? s
    match rest with
    | ']' :: ']' :: rest => return (← p.addHeader path key true, rest)
    | _ => none
  | '[' :: s => do
    let ((path, key), rest) ← key? s
    match rest with
    | ']' :: rest => return (← p.addHeader path key false, rest)
    | _ => none
  | s =>
    if (newline? s).isSome || s.isEmpty || s.head? = some '#' then some (p, s)
    else do
      let ((path, key, value), rest) ← entry? (value? nestingLimit) s
      return (← p.addValue path key value, rest)

def lines? : Nat → Progress → List Char → Option Progress
  | 0, _, _ => none
  | fuel + 1, p, s => do
    let (p, rest) ← p.line? (skipBlanks s)
    let rest := skipComment (skipBlanks rest)
    if rest.isEmpty then return p
    let rest ← newline? rest
    lines? fuel p rest

end Progress

/-- The top-level entries of a document; `none` if it is not well formed. -/
def read? (document : String) : Option Entries :=
  let s := match document.toList with
    | '\uFEFF' :: s => s
    | s => s
  (Progress.lines? (s.length + 1) ⟨[], []⟩ s).map (·.root)

end RouteCoverage.Document
