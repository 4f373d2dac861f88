/-!
# Rounding to 53 significant bits

Non-negative binary floating-point numbers of 53 significant bits, rounded to nearest with
ties to the even neighbour, in exact arithmetic on natural numbers.  The exponent is not
bounded: the numbers of this library are far from both ends of the format's range.  A number
is built from a ratio (`ofRatio`), and every operation is one such rounding of an exact ratio.
-/

namespace RouteCoverage

/-- How a tie between two neighbours is decided. -/
inductive Tie where
  | toEven
  | up
deriving DecidableEq, Repr

/-- The quotient `num / den` rounded to the nearest natural number. -/
def roundDiv (num den : Nat) (tie : Tie) : Nat :=
  let q := num / den
  let twice := 2 * (num % den)
  if den < twice then q + 1
  else if twice = den then
    match tie with
    | .toEven => if q % 2 = 0 then q else q + 1
    | .up => q + 1
  else q

/-- The number `mantissa * 2 ^ exponent`; the mantissa is zero or has 53 bits. -/
structure Binary64 where
  mantissa : Nat
  exponent : Int
deriving DecidableEq, Repr, Inhabited

namespace Binary64

def leadingBit : Nat := 1 <<< 52

/-- The number zero. -/
def zero : Binary64 := ⟨0, 0⟩

/-- The numerator of the value over `denominator`. -/
def numerator (x : Binary64) : Nat := x.mantissa <<< x.exponent.toNat

/-- A power of two that, times the value, is a natural number. -/
def denominator (x : Binary64) : Nat := 1 <<< (-x.exponent).toNat

/-- The number nearest to `num / den`. -/
def ofRatio (num den : Nat) : Binary64 :=
  if num = 0 then zero
  else
    -- `num / den` lies strictly between `2 ^ (k - 1)` and `2 ^ (k + 1)`
    let k : Int := (num.log2 : Int) - (den.log2 : Int)
    let scaled (e : Int) : Nat := roundDiv (num <<< (-e).toNat) (den <<< e.toNat) .toEven
    let floor (e : Int) : Nat := (num <<< (-e).toNat) / (den <<< e.toNat)
    let e := if floor (k - 53) < 2 * leadingBit then k - 53 else k - 52
    let m := scaled e
    if m = 2 * leadingBit then ⟨leadingBit, e + 1⟩ else ⟨m, e⟩

/-- The number nearest to `n`. -/
def ofNat (n : Nat) : Binary64 := ofRatio n 1

/-- The quotient of two numbers, rounded; the divisor is not zero. -/
def div (x y : Binary64) : Binary64 :=
  ofRatio (x.numerator * y.denominator) (x.denominator * y.numerator)

/-- The product with a small natural number, rounded. -/
def scale (x : Binary64) (n : Nat) : Binary64 := ofRatio (x.numerator * n) x.denominator

/-- The nearest natural number, a half going up. -/
def round (x : Binary64) : Nat := roundDiv x.numerator x.denominator .up

/-- The 64 bits of the interchange format: exponent field, then the mantissa without its
leading bit. -/
def toBits (x : Binary64) : Nat :=
  if x.mantissa = 0 then 0
  else (x.exponent + 1075).toNat * leadingBit + (x.mantissa - leadingBit)

/-- The value with one digit after the point, rounded to nearest on the exact value and a
tie to the even digit. -/
def toFixed1 (x : Binary64) : String :=
  let tenths := roundDiv (x.numerator * 10) x.denominator .toEven
  toString (tenths / 10) ++ "." ++ toString (tenths % 10)

end Binary64

end RouteCoverage
