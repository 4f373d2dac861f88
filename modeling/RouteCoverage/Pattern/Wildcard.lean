import RouteCoverage.Pattern.Expression
import RouteCoverage.Text.Split

/-!
# Wildcards

In a wildcard text every `*` stands for any characters of one line, none included; all other
characters stand for themselves.  A wildcard text is written as an expression for a whole name and
read as one.
-/

namespace RouteCoverage.Wildcard

/-- The characters that mean something in a written expression. -/
def metaChars : List Char :=
  ['\\', '.', '+', '*', '?', '(', ')', '|', '[', ']', '{', '}', '^', '$', '#', '&', '-', '~']

/-- A character as it is written to stand for itself. -/
def escapeChar (c : Char) : List Char := if c ∈ metaChars then ['\\', c] else [c]

/-- A text as it is written to stand for itself. -/
def escape (text : List Char) : List Char := text.flatMap escapeChar

/-- Any characters but line feeds, as they are written. -/
def gap : List Char := ['.', '*']

/-- The written expression for a whole name that a wildcard text stands for. -/
def written (text : List Char) : List Char :=
  '^' :: (gap.intercalate ((splitAt '*' text).map escape) ++ ['$'])

/-- The expression of a text with a `*` in it. -/
def regex? [Dialect] (text : List Char) : Option Regex :=
  if '*' ∈ text then Expression.regex? (written text) else none

end RouteCoverage.Wildcard
