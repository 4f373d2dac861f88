import RouteCoverage.Pattern.Regex

/-!
# Dialects of regular expressions

What a written expression means depends on Unicode data, which grow from one version of the
standard to the next, and an expression is refused if its automaton gets too large.  Both belong to
the library that reads the expressions.  They are the parameters of all that follows.
-/

namespace RouteCoverage

/-- A dialect: the Unicode data it goes by, and the written expressions that it has room for. -/
class Dialect where
  /-- decimal digits -/
  decimal : CharSet
  /-- characters of words -/
  word : CharSet
  /-- characters of alphabets -/
  alphabetic : CharSet
  /-- numbers of all kinds -/
  numeric : CharSet
  /-- the characters that differ from a character at most in case -/
  variants : Char → List Char
  /-- the set that the name of a property, a category or a script stands for -/
  property? : List Char → Option CharSet
  /-- the set of the characters for which a property has a value, both given by name -/
  propertyValue? : List Char → List Char → Option CharSet
  /-- whether the automaton of a written expression keeps to the limit of size -/
  fits : List Char → Bool

end RouteCoverage
