import RouteCoverage.Text.Blank
import RouteCoverage.Trace
import RouteCoverage.Markup.Event

/-!
# Execution dumps

A dump is a markup document that holds a `route` element for each route of a run.  Every
element inside it that carries an `exchangesTotal` attribute is one record of the route's
trace, in document order; the route element's own total is reported under the name `from`.
`Dump.records` reads the trace of the route whose `id` attribute is the wanted id.
-/

namespace RouteCoverage

/-- Why the trace of a route cannot be read from a dump. -/
inductive DumpFault where
  | malformed (cause : Markup.Error)
  | invalidCount (element value : String)
deriving DecidableEq, Repr

namespace Hits

/-- The number that decimal digits write; `none` for anything else. -/
def ofDigits? (digits : List Char) : Option Nat :=
  if digits ≠ [] ∧ digits.all Char.isDigit then
    some (digits.foldl (fun n d => 10 * n + (d.toNat - '0'.toNat)) 0)
  else none

/-- Text without a plus sign at its front. -/
def unsigned : List Char → List Char
  | '+' :: digits => digits
  | digits => digits

/-- Reads a hit count: digits after an optional plus sign, with blanks around. -/
def parse? (text : List Char) : Option Hits := do
  ofNat? (← ofDigits? (unsigned (trimBlank text)))

end Hits

namespace Dump

open Markup (Tag)

/-- The local name of an element that holds a route. -/
def routeName : List Char := "route".toList

/-- The name under which the total of a route element is reported. -/
def inputName : String := "from"

/-- The attribute that names a route. -/
def idKey : List Char := "id".toList

/-- The attribute that carries a hit count. -/
def totalKey : List Char := "exchangesTotal".toList

def value? (tag : Tag) (key : List Char) : Except DumpFault (Option (List Char)) :=
  match tag.find? key with
  | .ok value => .ok value
  | .error e => .error (.malformed (.badAttribute e))

/-- Whether a tag opens the route with the wanted id.  Ids are compared as written. -/
def isRoute (routeId : String) (tag : Tag) : Except DumpFault Bool :=
  if tag.localName = routeName then do
    return (← value? tag idKey) == some routeId.toList
  else .ok false

/-- The record of an element, if it carries a count. -/
def record (tag : Tag) : Except DumpFault (Option Record) := do
  match ← value? tag totalKey with
  | none => return none
  | some value =>
    match Hits.parse? value with
    | none => throw (.invalidCount (String.ofList tag.localName) (String.ofList value))
    | some hits =>
      let name := if tag.localName = routeName then inputName else String.ofList tag.localName
      return some ⟨name, hits⟩

/-- What has been read of a dump: the number of open elements inside the wanted route, the
route element included, and the records found, in order. -/
structure Progress where
  depth : Nat
  trace : Trace
deriving DecidableEq, Repr, Inhabited

/-- Adds the record of an element. -/
def Progress.add (p : Progress) (tag : Tag) : Except DumpFault Progress := do
  return { p with trace := p.trace ++ (← record tag).toList }

def step (routeId : String) (p : Progress) : Markup.Event → Except DumpFault Progress
  | .start tag => do
      if 0 < p.depth then Progress.add { p with depth := p.depth + 1 } tag
      else if ← isRoute routeId tag then Progress.add { p with depth := 1 } tag
      else return p
  | .empty tag => do
      if 0 < p.depth then p.add tag
      else if ← isRoute routeId tag then p.add tag
      else return p
  | .close _ => return { p with depth := p.depth - 1 }
  | .skipped => return p

def records (routeId : String) (document : String) : Except DumpFault Trace := do
  let (events, fault) := Markup.events document.toList
  let read ← events.foldlM (step routeId) ⟨0, []⟩
  match fault with
  | some e => throw (.malformed e)
  | none => return read.trace

end Dump

end RouteCoverage
