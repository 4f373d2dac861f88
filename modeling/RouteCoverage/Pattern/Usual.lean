import RouteCoverage.Pattern.Expression
import RouteCoverage.Text.CaseFold
import RouteCoverage.Text.Property
import RouteCoverage.Text.Script

/-!
# The usual dialect

The dialect that the program runs with.  Its Unicode data are those of the tables, which know most
of the properties by name, and the size of an automaton is estimated.  No result about expressions
rests on them.
-/

namespace RouteCoverage

namespace Dialect

/-- The part of a name that counts when names are compared: its ASCII characters in lower case,
without spaces, hyphens and underscores and without a leading `is`. -/
def looseName (name : List Char) : List Char :=
  let name := name.map Char.toLower
  let (hasIs, name) := match name with
    | 'i' :: 's' :: name => (true, name)
    | name => (false, name)
  let name := name.filter fun c => c.toNat < 128 && c != ' ' && c != '-' && c != '_'
  if hasIs && name == ['c'] then ['i', 's', 'c'] else name

def loose (name : String) : List Char := looseName name.toList

/-- The set of a general category or of a group of them. -/
def categoryNamed? (name : List Char) : Option CharSet :=
  let isName (s : String) : Bool := loose s == name
  let inCategories (cs : List Category) : CharSet := fun c => Category.ofChar c ∈ cs
  if isName "Any" then some fun _ => true
  else if isName "ASCII" then some fun c => c.toNat < 128
  else if isName "Assigned" then some fun c => Category.ofChar c != .cn
  else
    match Category.groups.find? fun (names, _) => names.any isName with
    | some (_, members) => some (inCategories members)
    | none =>
      (Category.names.find? fun (_, names) => names.any isName).map fun (category, _) =>
        inCategories [category]

def scriptNamed? (name : List Char) : Option CharSet :=
  (Script.ofName? loose name).map fun script c => Script.ofChar c = script

/-- The set that a name stands for: a property, else a category, else a script.  The names `cf`,
`sc` and `lc` are always categories. -/
def setNamed? (name : List Char) : Option CharSet :=
  ((CharProperty.ofName? loose name).or (categoryNamed? name)).or (scriptNamed? name)

/-- The set of a value that a property may have. -/
def setOfValue? (property value : List Char) : Option CharSet :=
  let isProperty (s : String) : Bool := loose s == looseName property
  if isProperty "gc" || isProperty "General_Category" then categoryNamed? (looseName value)
  else if isProperty "sc" || isProperty "Script" then scriptNamed? (looseName value)
  else none

/-- The Unicode data of the tables, and room for every expression. -/
@[reducible]
def unlimited : Dialect where
  decimal := isDecimal
  word := isWordChar
  alphabetic := CharProperty.isAlphabetic
  numeric c := Category.ofChar c ∈ [Category.nd, .nl, .no]
  variants := caseVariants
  property? name := setNamed? (looseName name)
  propertyValue? := setOfValue?
  fits _ := true

/-- Some characters beyond ASCII, by which the size of a set is estimated. -/
def samples : List Char := ['ƾ', 'Ӿ', 'ݜ', 'ऴ', 'ㄅ', '㐀', '⛇', '𐀀']

/-- An estimate of the states that an automaton needs for a set of characters. -/
def statesOfSet (chars : CharSet) : Nat :=
  let inside := samples.countP chars
  if inside = 0 then 1 else if inside = samples.length then 11 else 1500

/-- An estimate of the states that an automaton needs for an expression. -/
def states : Regex → Nat
  | .empty | .look _ => 1
  | .set chars => statesOfSet chars
  | .seq first second => states first + states second
  | .alt left right => states left + states right
  | .times least most body =>
    match most with
    | some most => most * states body + 1
    | none => (max least 1) * states body + 1

/-- The number of states that there is room for. -/
def stateLimit : Nat := 327680

/-- The dialect of the program. -/
instance usual : Dialect :=
  { unlimited with
    fits := fun text => (@Expression.part? unlimited text).all (states ·.regex ≤ stateLimit) }

end Dialect

end RouteCoverage
