import RouteCoverage.Document.Scalar

/-!
# Texts of documents

The four ways to write a text: with or without escapes, on one line or on several.  The closing
quotes of a text on several lines are the last three of a run of at most five.
-/

namespace RouteCoverage.Document.Text

/-- Whether a character may stand in a text or a comment: no control character but the tab. -/
def isPrintable (c : Char) : Bool := c == '\t' || (32 ≤ c.toNat && c.toNat != 127)

/-- The character that is written by `width` hexadecimal digits, and the rest. -/
def hexChar? (width : Nat) (s : List Char) : Option (Char × List Char) := do
  let digits := s.take width
  guard (digits.length = width ∧ !digits.contains '_')
  let n ← Scalar.digits? 16 digits
  guard n.isValidChar
  return (Char.ofNat n, s.drop width)

/-- The character that an escape stands for, and the rest behind it. -/
def escape? : List Char → Option (Char × List Char)
  | 'b' :: s => some ('\x08', s)
  | 'f' :: s => some ('\x0C', s)
  | 'n' :: s => some ('\n', s)
  | 'r' :: s => some ('\r', s)
  | 't' :: s => some ('\t', s)
  | '"' :: s => some ('"', s)
  | '\\' :: s => some ('\\', s)
  | 'u' :: s => hexChar? 4 s
  | 'U' :: s => hexChar? 8 s
  | _ => none

/-- The rest behind a line end, if one comes next. -/
def newline? : List Char → Option (List Char)
  | '\n' :: s => some s
  | '\r' :: '\n' :: s => some s
  | _ => none

/-- The rest behind the blanks of a line. -/
def skipBlanks (s : List Char) : List Char := s.dropWhile fun c => c == ' ' || c == '\t'

/-- The rest behind blanks and line ends. -/
def skipLines : Nat → List Char → List Char
  | 0, s => s
  | fuel + 1, s =>
    let s := skipBlanks s
    match newline? s with
    | some rest => skipLines fuel rest
    | none => s

/-- Reads a text on one line behind its quote. -/
def line? (quote : Char) : Nat → List Char → List Char → Option (List Char × List Char)
  | 0, _, _ => none
  | fuel + 1, read, s =>
    match s with
    | [] => none
    | c :: s =>
      if c = quote then some (read.reverse, s)
      else if c = '\\' && quote = '"' then do
        let (c, rest) ← escape? s
        line? quote fuel (c :: read) rest
      else if isPrintable c then line? quote fuel (c :: read) s
      else none

/-- Reads a text on several lines behind its quotes. -/
def lines? (quote : Char) : Nat → List Char → List Char → Option (List Char × List Char)
  | 0, _, _ => none
  | fuel + 1, read, s =>
    match newline? s with
    | some rest => lines? quote fuel ('\n' :: read) rest
    | none =>
      match s with
      | [] => none
      | c :: s =>
        if c = quote then
          let run := (c :: s).takeWhile (· == quote)
          let rest := (c :: s).drop run.length
          if run.length < 3 then lines? quote fuel (run ++ read) rest
          else if run.length ≤ 5 then
            some ((List.replicate (run.length - 3) quote ++ read).reverse, rest)
          else none
        else if c = '\\' && quote = '"' then
          match newline? (skipBlanks s) with
          | some rest => lines? quote fuel read (skipLines rest.length rest)
          | none => do
            let (c, rest) ← escape? s
            lines? quote fuel (c :: read) rest
        else if isPrintable c then lines? quote fuel (c :: read) s
        else none

/-- Reads a text that begins with the given quote; `behind` is what follows that quote. -/
def read? (quote : Char) (behind : List Char) : Option (List Char × List Char) :=
  match behind with
  | q1 :: q2 :: rest =>
    if q1 = quote ∧ q2 = quote then
      let rest := (newline? rest).getD rest
      lines? quote (rest.length + 1) [] rest
    else line? quote (behind.length + 1) [] behind
  | _ => line? quote (behind.length + 1) [] behind

end RouteCoverage.Document.Text
