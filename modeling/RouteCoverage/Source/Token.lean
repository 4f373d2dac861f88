import RouteCoverage.Text.Category

/-!
# Tokens of source text

Cuts source text into words, numbers, literals, marks and comments.  A token knows its line,
the line where it ends, and whether it follows the one before immediately.  The mark `>` is
always a token of its own, as it may close the arguments of a type.  What cannot be a token
becomes a faulty one that no rule accepts.
-/

namespace RouteCoverage.Source

/-- The kinds of tokens. -/
inductive TokenKind where
  | word
  | number
  | string
  | character
  | mark
  | comment
  | faulty
deriving DecidableEq, Repr, Inhabited

/-- A token. -/
structure Token where
  kind : TokenKind
  text : String
  line : Nat
  endLine : Nat
  glued : Bool
deriving DecidableEq, Repr, Inhabited

namespace Token

/-- The marks, each before those that it begins with. -/
def marks : List (List Char) :=
  (["...", "->", "::", "++", "--", "&&", "||", "==", "!=", "<<=", "<<", "<=", "+=", "-=", "*=",
    "/=", "&=", "|=", "^=", "%=", "\x7b", "\x7d", "(", ")", "[", "]", ";", ",", ".", "@", "=", ">",
    "<", "!", "~", "?", ":", "+", "-", "*", "/", "&", "|", "^", "%"]).map String.toList

/-- The characters that a word begins with. -/
def isWordStart (c : Char) : Bool := isLetter c || c == '_' || c == '$'

/-- The characters that a word goes on with. -/
def isWordRest (c : Char) : Bool := isWordStart c || isDecimal c

/-- The characters between tokens. -/
def isGap (c : Char) : Bool := c == ' ' || c == '\t' || c == '\r' || c == '\n'

/-- Hexadecimal digits. -/
def isHex (c : Char) : Bool :=
  c.isDigit || ('a' ≤ c && c ≤ 'f') || ('A' ≤ c && c ≤ 'F')

/-- The rest behind one of the given letters. -/
def skipLetter? (letters : String) : List Char → Option (List Char)
  | c :: s => if c ∈ letters.toList then some s else none
  | [] => none

/-- The rest behind what may be missing. -/
def skipIfThere (skip? : List Char → Option (List Char)) (s : List Char) : List Char :=
  (skip? s).getD s

/-- The rest behind digits, with at most one underscore between two of them. -/
def skipGroups (isDigit : Char → Bool) : List Char → List Char
  | '_' :: c :: s => if isDigit c then skipGroups isDigit s else '_' :: c :: s
  | c :: s => if isDigit c then skipGroups isDigit s else c :: s
  | [] => []

/-- The rest behind digits, of which there is at least one. -/
def skipDigits? (isDigit : Char → Bool) : List Char → Option (List Char)
  | c :: s => if isDigit c then some (skipGroups isDigit s) else none
  | [] => none

/-- The rest behind the last digit of a run of digits and underscores. -/
def skipRun (s : List Char) : List Char :=
  let run := s.takeWhile fun c => c.isDigit || c == '_'
  s.drop (run.length - (run.reverse.takeWhile (· == '_')).length)

/-- The rest behind a zero, or behind digits that do not begin with one.  Several underscores may
stand between two digits, but only one behind the first. -/
def skipWhole? : List Char → Option (List Char)
  | '0' :: s => some s
  | c :: '_' :: '_' :: s => if c.isDigit then some ('_' :: '_' :: s) else none
  | c :: s => if c.isDigit then some (skipRun s) else none
  | [] => none

/-- The rest behind the mark of a base. -/
def skipBase? (letters : String) (s : List Char) : Option (List Char) := do
  skipLetter? letters (← skipLetter? "0" s)

def skipExponent? (letters : String) (digits? : List Char → Option (List Char)) (s : List Char) :
    Option (List Char) := do
  digits? (skipIfThere (skipLetter? "+-") (← skipLetter? letters s))

/-- What a text begins with may be a number in several forms.  These are the rests behind them. -/
def numberRests (s : List Char) : List (List Char) :=
  let decimal? := skipDigits? Char.isDigit
  let octal? := skipDigits? fun c => '0' ≤ c && c ≤ '7'
  let hex? := skipDigits? isHex
  let dot? := skipLetter? "."
  let long := skipIfThere (skipLetter? "lL")
  let float := skipIfThere (skipLetter? "fFdD")
  let exponent := skipIfThere (skipExponent? "eE" decimal?)
  let power := skipIfThere fun s => (skipExponent? "pP" skipWhole? s).map float
  let integers :=
    [skipWhole? s, skipBase? "xX" s >>= hex?, skipBase? "oO" s >>= octal?,
      skipLetter? "0" s >>= octal?, skipBase? "bB" s >>= skipDigits? fun c => c == '0' || c == '1']
  let decimals :=
    [(decimal? s >>= dot?).map fun s => exponent (skipIfThere decimal? s),
      (dot? s >>= decimal?).map exponent, skipWhole? s >>= skipExponent? "eEpP" decimal?]
  let powers :=
    [(skipBase? "xX" s >>= hex?).map (skipIfThere dot?),
      skipBase? "xX" s >>= fun s => dot? (skipIfThere hex? s) >>= hex?]
  let marked := skipWhole? s >>= skipLetter? "fFdD"
  (integers.map (·.map long) ++ decimals.map (·.map float) ++ marked ::
    powers.map (·.map power)).filterMap id

/-- The rest behind the longest number that a text begins with. -/
def skipNumber (s : List Char) : List Char :=
  (numberRests s).foldl (fun best rest => if rest.length < best.length then rest else best) s

/-- The rest behind the escape that follows a backslash. -/
def skipEscape? : List Char → Option (List Char)
  | 'x' :: a :: b :: s => if isHex a && isHex b then some s else none
  | 'u' :: '{' :: s =>
    match s.dropWhile isHex with
    | '}' :: rest => if (s.takeWhile isHex).isEmpty then none else some rest
    | _ => none
  | 'u' :: a :: b :: c :: d :: s =>
    if isHex a && isHex b && isHex c && isHex d then some s else none
  | c :: s => if c == 'x' || c == 'u' || c == '\x00' then none else some s
  | [] => none

theorem length_skipEscape?_lt {s rest : List Char} (h : skipEscape? s = some rest) :
    rest.length < s.length := by
  unfold skipEscape? at h
  split at h
  · split at h <;> simp at h; subst h; simp; omega
  · next s =>
    split at h
    · next rest' heq =>
      have hle := (List.dropWhile_suffix isHex (l := s)).length_le
      rw [heq] at hle
      split at h <;> simp at h
      subst h
      simp at hle ⊢
      omega
    · simp at h
  · split at h <;> simp at h; subst h; simp; omega
  · split at h <;> simp at h; subst h; simp
  · simp at h

/-- The rest behind a string literal, from behind its first quote. -/
def skipString? (s : List Char) : Option (List Char) :=
  match s with
  | [] => none
  | '"' :: s => some s
  | '\\' :: s =>
    match h : skipEscape? s with
    | some rest =>
      have := length_skipEscape?_lt h
      skipString? rest
    | none => none
  | c :: s => if c = '\x00' then none else skipString? s
termination_by s.length
decreasing_by all_goals simp_all <;> omega

/-- The rest behind a text block, from behind its three quotes. -/
def skipTextBlock? (s : List Char) : Option (List Char) :=
  match s with
  | [] => none
  | '"' :: '"' :: '"' :: s => some s
  | '\\' :: s =>
    match h : skipEscape? s with
    | some rest =>
      have := length_skipEscape?_lt h
      skipTextBlock? rest
    | none => none
  | c :: s => if c = '\x00' then none else skipTextBlock? s
termination_by s.length
decreasing_by all_goals simp_all <;> omega

/-- The rest behind a character literal, from behind its first quote; it holds at least one
character or escape, and a line feed only behind a backslash. -/
def skipCharacter? (some? : Bool) : List Char → Option (List Char)
  | '\'' :: s => if some? then some s else none
  | '\\' :: c :: s => if c = '\x00' then none else skipCharacter? true s
  | c :: s => if c = '\n' || c = '\x00' || c = '\\' then none else skipCharacter? true s
  | [] => none

/-- The rest behind a comment, from behind its opening. -/
def skipComment? : List Char → Option (List Char)
  | '*' :: '/' :: s => some s
  | c :: s => if c = '\x00' then none else skipComment? s
  | [] => none

/-- The rest behind the first mark that a text begins with. -/
def skipMark? (s : List Char) : Option (List Char) :=
  (marks.find? (·.isPrefixOf s)).map fun mark => s.drop mark.length

/-- The kind of the token that a text begins with, and the rest behind it.  A faulty token is
one character long. -/
def read (s : List Char) : TokenKind × List Char :=
  let faulty := (TokenKind.faulty, s.tail)
  let orFaulty (kind : TokenKind) (rest : Option (List Char)) := (rest.map (kind, ·)).getD faulty
  match s with
  | '/' :: '/' :: rest => (.comment, rest.dropWhile fun c => c != '\n' && c != '\x00')
  | '/' :: '*' :: rest => orFaulty .comment (skipComment? rest)
  | '"' :: '"' :: '"' :: rest => orFaulty .string (skipTextBlock? rest)
  | '"' :: rest => orFaulty .string (skipString? rest)
  | '\'' :: rest => orFaulty .character (skipCharacter? false rest)
  | c :: rest =>
    if isWordStart c then (.word, rest.dropWhile isWordRest)
    else if c.isDigit || (c == '.' && (rest.head?.any Char.isDigit)) then (.number, skipNumber s)
    else orFaulty .mark (skipMark? s)
  | [] => faulty

/-- The tokens of a text that goes on in the given line. -/
def readAll : Nat → Nat → Bool → List Char → List Token
  | 0, _, _, _ => []
  | _, _, _, [] => []
  | fuel + 1, line, glued, c :: s =>
    if isGap c then readAll fuel (if c = '\n' then line + 1 else line) false s
    else
      let (kind, rest) := read (c :: s)
      let text := (c :: s).take ((c :: s).length - rest.length)
      let endLine := line + text.count '\n'
      ⟨kind, String.ofList text, line, endLine, glued⟩ ::
        readAll fuel endLine (kind != .comment) rest

/-- The tokens of a source text; a byte order mark in front is skipped. -/
def ofSource (source : String) : List Token :=
  let s := match source.toList with
    | '\uFEFF' :: s => s
    | s => s
  readAll s.length 1 false s

end Token

end RouteCoverage.Source
