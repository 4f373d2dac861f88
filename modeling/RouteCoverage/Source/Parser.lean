import RouteCoverage.Source.Node

/-!
# Parsers of source text

Source text is read by a grammar that is no part of the program.  What becomes of the routes of a
project is said for every such reader.
-/

namespace RouteCoverage.Source

/-- A parser: the tree of a source text, or the line of its first fault. -/
class Parser where
  parse : String → Except Nat Node

end RouteCoverage.Source
