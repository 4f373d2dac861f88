/-!
# Blank characters

The characters with the Unicode property *White_Space*, and text with the blank characters
taken off both ends.
-/

namespace RouteCoverage

/-- The characters with the property *White_Space*. -/
def isBlank (c : Char) : Bool :=
  let n := c.toNat
  (0x09 ≤ n && n ≤ 0x0D) || n == 0x20 || n == 0x85 || n == 0xA0 || n == 0x1680 ||
    (0x2000 ≤ n && n ≤ 0x200A) || n == 0x2028 || n == 0x2029 || n == 0x202F ||
    n == 0x205F || n == 0x3000

/-- The characters of `s` from its first that is not blank to its last that is not. -/
def trimBlank (s : List Char) : List Char :=
  ((s.dropWhile isBlank).reverse.dropWhile isBlank).reverse

end RouteCoverage
