import RouteCoverage.Pattern.Wildcard
import RouteCoverage.Pattern.Expression

/-!
# Patterns

A pattern is a text that is compared with names in three ways: as it is, as a wildcard text,
and as a regular expression for the whole name.  One agreement is enough.  A text that is not a
regular expression never matches as one.
-/

namespace RouteCoverage

/-- A pattern: its text, and its two readings as an expression. -/
structure Pattern where
  text : String
  wildcard : Option Regex
  expression : Option Regex

namespace Pattern

/-- The expression for a whole name that an expression, as written, is put into. -/
def anchored (text : List Char) : List Char := "^(?:".toList ++ text ++ ")$".toList

def ofText [Dialect] (text : String) : Pattern :=
  { text
    wildcard := Wildcard.regex? text.toList
    expression := Expression.regex? (anchored text.toList) }

def isMatch (p : Pattern) (name : String) : Bool :=
  name == p.text || p.wildcard.any (·.isFoundIn name.toList) ||
    p.expression.any (·.isFoundIn name.toList)

end Pattern

end RouteCoverage
