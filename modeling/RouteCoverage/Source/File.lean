import RouteCoverage.Source.Grammar.Declaration
import RouteCoverage.Source.Parser

/-!
# Source files

Reads a source text into a tree, or tells the line of its first fault.  The fault is at the
token that stopped the reading.  If one more token in front of it lets the reading go on, that
token is what is missing, and its place is right behind the token before.  A text that ends too
early for that is at fault from the beginning of its unfinished last phrase.
-/

namespace RouteCoverage.Source

/-- How far a text could be read: the place behind its last whole phrase, and the index of the
token that stopped the reading. -/
structure Attempt where
  place : Place
  stop : Nat
deriving Inhabited

namespace Attempt

/-- Reads as much of a file as possible. -/
def ofTokens (tokens : Array Token) : Attempt :=
  let o := Rule.read tokens Grammar.rule (16 * (tokens.size + 1)) .file ⟨0, []⟩
  let place := ((o.place.getD ⟨0, []⟩).skipComments tokens)
  ⟨place, max o.reach place.index⟩

/-- Whether all of a file was read. -/
def isWhole (tokens : Array Token) (a : Attempt) : Bool := a.place.index = tokens.size

end Attempt

/-- The tokens that are tried where one seems to be missing. -/
def missingTokens : List Token :=
  (([";", ")", "]", "\x7d", ">"].map fun text => (TokenKind.mark, text)) ++
    [(TokenKind.word, "missing")]).map fun (kind, text) => ⟨kind, text, 0, 0, false⟩

/-- Whether a token in front of the one with the given index lets the reading go past that. -/
def mends (tokens : Array Token) (index : Nat) (t : Token) : Bool :=
  let mended := (tokens.toList.take index ++ t :: tokens.toList.drop index).toArray
  let a := Attempt.ofTokens mended
  a.isWhole mended || index + 1 < a.stop

/-- The line of the fault that stopped an attempt. -/
def faultLine (tokens : Array Token) (a : Attempt) : Nat :=
  if missingTokens.any (mends tokens a.stop) then
    ((tokens[a.stop - 1]?).map (·.endLine)).getD 1
  else
    let first := if a.stop < tokens.size then a.stop else a.place.index
    ((tokens[first]?).map (·.line)).getD 1

/-- The tree of a source text, or the line of its first fault. -/
def parse (source : String) : Except Nat Node :=
  let tokens := (Token.ofSource source).toArray
  let a := Attempt.ofTokens tokens
  if a.isWhole tokens then .ok (.node .other none 1 "" a.place.nodes.reverse)
  else .error (faultLine tokens a)

/-- The parser of the program. -/
instance usualParser : Parser := ⟨parse⟩

end RouteCoverage.Source
