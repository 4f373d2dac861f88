/-!
# Configuration documents

The values of a TOML document, and how its lines add to its tables.  A table remembers how it
came about, since that decides what may still be added to it: a table with a header takes keys
only below that header, a table made by dotted keys takes more dotted keys, a table that only
lies on the way to others may still get a header, and an inline table takes nothing.
-/

namespace RouteCoverage.Document

/-- How a table came about. -/
inductive Origin where
  /-- by its header, or as the whole document -/
  | header
  /-- on the way to a table with a header -/
  | implied
  /-- by a dotted key -/
  | dotted
  /-- in braces -/
  | inline
deriving DecidableEq, Repr, Inhabited

/-- A value of a document. -/
inductive Value where
  | text (s : String)
  | integer (n : Int)
  | boolean (b : Bool)
  /-- a number with a fraction or an exponent, or none at all, as it is written -/
  | float (written : String)
  /-- a date, a time or both, as it is written -/
  | moment (written : String)
  | array (elements : List Value)
  | table (origin : Origin) (entries : List (String × Value))
  /-- tables with headers of one name, the last one first -/
  | tables (elements : List (List (String × Value)))
deriving Repr, Inhabited

/-- The keys of a table with their values. -/
abbrev Entries := List (String × Value)

namespace Entries

def get? (key : String) (entries : Entries) : Option Value := List.lookup key entries

/-- Gives a key a value; a new key comes last. -/
def put (key : String) (value : Value) : Entries → Entries
  | [] => [(key, value)]
  | (k, v) :: rest => if k = key then (k, value) :: rest else (k, v) :: put key value rest

/-- Changes a table by `edit`, which is told the table's origin. -/
abbrev Edit := Origin → Entries → Option (Origin × Entries)

/-- Changes the table that a path leads to; missing tables are made on the way.  A path of a
dotted key must not pass through a table with a header.  Of several tables of one name a path
leads into the last. -/
def editAt (viaDots : Bool) (edit : Edit) : List String → Edit
  | [], origin, entries => edit origin entries
  | key :: path, origin, entries =>
    match get? key entries with
    | none => do
      let (inner, table) ← editAt viaDots edit path (if viaDots then .dotted else .implied) []
      return (origin, put key (.table inner table) entries)
    | some (.table inner table) =>
      if inner = .inline || (viaDots && inner = .header) then none
      else do
        let (inner, table) ← editAt viaDots edit path inner table
        return (origin, put key (.table inner table) entries)
    | some (.tables (last :: before)) => do
      let (_, last) ← editAt viaDots edit path .header last
      return (origin, put key (.tables (last :: before)) entries)
    | some _ => none

/-- Adds a key that the table does not have yet.  A dotted key belongs into a table made by
dotted keys, a plain one into any other. -/
def addEntry (isDotted : Bool) (key : String) (value : Value) : Edit := fun origin entries =>
  if (origin = .dotted) = isDotted ∧ (get? key entries).isNone then
    some (origin, put key value entries)
  else none

/-- Adds a value under a key, which may be dotted: `path` leads to its last part. -/
def addValue (path : List String) (key : String) (value : Value) : Edit :=
  editAt true (addEntry (!path.isEmpty) key value) path

def addTable (key : String) : Edit := fun origin entries =>
  match get? key entries with
  | none => some (origin, put key (.table .header []) entries)
  | some (.table .implied table) => some (origin, put key (.table .header table) entries)
  | some _ => none

/-- Adds one more table to those of a header in double brackets. -/
def addElement (key : String) : Edit := fun origin entries =>
  match get? key entries with
  | none => some (origin, put key (.tables [[]]) entries)
  | some (.tables elements) => some (origin, put key (.tables ([] :: elements)) entries)
  | some _ => none

end Entries

end RouteCoverage.Document
