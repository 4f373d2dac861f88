import RouteCoverage.Document.Value

/-!
# Numbers, dates and times of documents

Everything that is written without quotes or brackets: truth values, integers in four bases,
numbers with fractions or exponents, dates and times.  A scalar is told by its whole text.
-/

namespace RouteCoverage.Document.Scalar

/-- The value of a digit in bases up to sixteen. -/
def digitValue? (base : Nat) (c : Char) : Option Nat :=
  let n := c.toNat
  let value :=
    if '0' ≤ c && c ≤ '9' then some (n - '0'.toNat)
    else if 'a' ≤ c && c ≤ 'f' then some (n - 'a'.toNat + 10)
    else if 'A' ≤ c && c ≤ 'F' then some (n - 'A'.toNat + 10)
    else none
  value.filter (· < base)

/-- The number that digits write in a base; single underscores may stand between digits. -/
def digits? (base : Nat) : List Char → Option Nat
  | [] => none
  | c :: s => do go (← digitValue? base c) s
where
  /-- The number that further digits make of `n`. -/
  go (n : Nat) : List Char → Option Nat
    | [] => some n
    | '_' :: c :: s => do go (base * n + (← digitValue? base c)) s
    | c :: s => do go (base * n + (← digitValue? base c)) s

/-- The number that plain decimal digits write, if there are as many as asked for. -/
def fixed? (width : Nat) (s : List Char) : Option Nat :=
  if s.length = width ∧ s.all Char.isDigit then digits? 10 s else none

/-- A sign, if there is one, and the rest. -/
def sign : List Char → Bool × List Char
  | '-' :: s => (true, s)
  | '+' :: s => (false, s)
  | s => (false, s)

/-- The number of a decimal integer; only zero begins with a zero. -/
def decimal? (s : List Char) : Option Nat :=
  match s with
  | '0' :: _ :: _ => none
  | s => digits? 10 s

/-- An integer of at most 64 bits. -/
def integer? (s : List Char) : Option Value := do
  let n : Int ← match s with
    | '0' :: 'x' :: s => (digits? 16 s).map Int.ofNat
    | '0' :: 'o' :: s => (digits? 8 s).map Int.ofNat
    | '0' :: 'b' :: s => (digits? 2 s).map Int.ofNat
    | s =>
      let (negative, s) := sign s
      (decimal? s).map fun n => if negative then -n else n
  guard (-0x8000000000000000 ≤ n ∧ n ≤ 0x7FFFFFFFFFFFFFFF)
  return .integer n

/-- The least number that is too great for a binary number of 64 bits: 54 ones before 970 zeros,
in base two. -/
def floatLimit : Nat := 0x3FFFFFFFFFFFFF <<< 970

def tenTo (n : Nat) : Nat := Nat.pow 10 n

/-- Whether `whole.fraction · 10 ^ exponent` is below the limit. -/
def isInRange (whole fraction : List Char) (exponent : Int) : Bool :=
  let digits := ((whole ++ fraction).filter Char.isDigit).dropWhile (· == '0')
  let n := digits.foldl (fun n d => 10 * n + (d.toNat - '0'.toNat)) 0
  let exponent := exponent - (fraction.filter Char.isDigit).length
  if n = 0 || exponent + digits.length < 309 then true
  else if 309 < exponent + digits.length then false
  else if 0 ≤ exponent then n * tenTo exponent.toNat < floatLimit
  else n < floatLimit * tenTo exponent.natAbs

/-- A number with a fraction or an exponent, or one of the words for none. -/
def float? (s : List Char) : Option Value := do
  let (_, unsigned) := sign s
  if unsigned = "inf".toList ∨ unsigned = "nan".toList then return .float (String.ofList s)
  let whole := unsigned.takeWhile fun c => c != '.' && c != 'e' && c != 'E'
  guard (decimal? whole).isSome
  let rest := unsigned.drop whole.length
  let (fraction, exponent) ← match rest with
    | '.' :: rest =>
      let fraction := rest.takeWhile fun c => c != 'e' && c != 'E'
      if (digits? 10 fraction).isSome then some (fraction, rest.drop fraction.length) else none
    | rest => if rest = [] then none else some ([], rest)
  let exponent : Int ← match exponent with
    | [] => some 0
    | _ :: s =>
      let (negative, s) := sign s
      (digits? 10 s).map fun n => if negative then -n else n
  guard (isInRange whole fraction exponent)
  return .float (String.ofList s)

def daysOf (year month : Nat) : Nat :=
  if month = 2 then
    if year % 4 = 0 ∧ (year % 100 ≠ 0 ∨ year % 400 = 0) then 29 else 28
  else if month = 4 ∨ month = 6 ∨ month = 9 ∨ month = 11 then 30 else 31

/-- Whether a text is a day of the calendar. -/
def isDate (s : List Char) : Bool :=
  match fixed? 4 (s.take 4), s.drop 4 with
  | some year, '-' :: m1 :: m2 :: '-' :: day =>
    match fixed? 2 [m1, m2], fixed? 2 day with
    | some month, some day => 1 ≤ month && month ≤ 12 && 1 ≤ day && day ≤ daysOf year month
    | _, _ => false
  | _, _ => false

/-- Whether a text is a time of day. -/
def isTime (s : List Char) : Bool :=
  match s.take 8 with
  | [h1, h2, ':', m1, m2, ':', s1, s2] =>
    let inRange := match fixed? 2 [h1, h2], fixed? 2 [m1, m2], fixed? 2 [s1, s2] with
      | some h, some m, some s => h ≤ 23 && m ≤ 59 && s ≤ 60
      | _, _, _ => false
    inRange && match s.drop 8 with
      | [] => true
      | '.' :: fraction => !fraction.isEmpty && fraction.all Char.isDigit
      | _ => false
  | _ => false

/-- Whether a text is a time of day with or without an offset. -/
def isOffsetTime (s : List Char) : Bool :=
  let time := s.takeWhile fun c => c.isDigit || c == ':' || c == '.'
  isTime time && match s.drop time.length with
    | [] | ['Z'] | ['z'] => true
    | [c, h1, h2, ':', m1, m2] =>
      (c == '+' || c == '-') && match fixed? 2 [h1, h2], fixed? 2 [m1, m2] with
        | some h, some m => h ≤ 23 && m ≤ 59
        | _, _ => false
    | _ => false

/-- A date, a time, or both with a letter or a blank between them. -/
def moment? (s : List Char) : Option Value :=
  let isMoment := isTime s || isDate s || (isDate (s.take 10) && match s.drop 10 with
    | c :: time => (c == 'T' || c == 't' || c == ' ') && isOffsetTime time
    | [] => false)
  if isMoment then some (.moment (String.ofList s)) else none

/-- The characters that scalars are written with. -/
def isScalarChar (c : Char) : Bool :=
  c.isAlphanum || c == '+' || c == '-' || c == '_' || c == '.' || c == ':'

/-- The value that a text writes. -/
def value? (s : List Char) : Option Value :=
  if s = "true".toList then some (.boolean true)
  else if s = "false".toList then some (.boolean false)
  else (integer? s).or ((float? s).or (moment? s))

/-- Reads a scalar; a blank between a date and a digit belongs to it. -/
def read? (s : List Char) : Option (Value × List Char) := do
  let first := s.takeWhile isScalarChar
  let rest := s.drop first.length
  let text := match rest with
    | ' ' :: more =>
      if isDate first && more.head?.any Char.isDigit then
        first ++ ' ' :: more.takeWhile isScalarChar
      else first
    | _ => first
  return (← value? text, s.drop text.length)

end RouteCoverage.Document.Scalar
