import RouteCoverage.Coverage
import RouteCoverage.Decimal.Binary64

/-!
# Coverage reports

The coverage of one route as text: a header with the file and the route id, a table with one
row for each step, and a summary line with the share of covered steps.
-/

namespace RouteCoverage

/-- The share `covered / total` in percent, as a binary number; zero of nothing. -/
def percentage (covered total : Nat) : Binary64 :=
  if total = 0 then .zero
  else ((Binary64.ofNat covered).div (Binary64.ofNat total)).scale 100

/-- The share in percent with exactly one decimal; ties of the second decimal go up. -/
def percentText (covered total : Nat) : String :=
  let tenths := ((percentage covered total).scale 10).round
  ((Binary64.ofNat tenths).div (Binary64.ofNat 10)).toFixed1

/-- Text written at the right end of a column of `width` characters; wider text is kept. -/
def rightAligned (width : Nat) (text : String) : String :=
  "".pushn ' ' (width - text.length) ++ text

/-- The coverage of one route, rendered. -/
structure Report where
  text : String
  covered : Nat
  total : Nat
deriving DecidableEq, Repr, Inhabited

namespace Report

/-- A route is fully covered when each of its steps was hit. -/
def isFullyCovered (r : Report) : Bool := r.covered == r.total

/-- One row of the table: two columns of eight characters and the step. -/
def tableRow (line count step : String) : String :=
  rightAligned 8 line ++ "   " ++ rightAligned 8 count ++ "   " ++ step

/-- A step is written two blanks further right for each level of nesting. -/
def indented (level : Nat) (name : String) : String := "".pushn ' ' (2 * level) ++ name

def entryRow (e : Entry) : String :=
  tableRow (toString e.line) (toString e.hits.count) (indented e.level e.name)

/-- The lines of a report, each without its line feed. -/
def lines (file routeId : String) (entries : List Entry) (covered total : Nat) : List String :=
  ["File: " ++ file, "Route: " ++ routeId, "",
    tableRow "Line #" "Count" "Route", tableRow "------" "-----" "-----"] ++
  entries.map entryRow ++
  ["", "Coverage: " ++ toString covered ++ " out of " ++ toString total ++
      " (" ++ percentText covered total ++ "%)", ""]

end Report

/-- Lines as one text, each ended by a line feed. -/
def unlines (lines : List String) : String := String.join (lines.map (· ++ "\n"))

theorem toList_unlines (lines : List String) :
    (unlines lines).toList = lines.flatMap fun line => line.toList ++ ['\n'] := by
  unfold unlines
  induction lines with
  | nil => rfl
  | cons line lines ih =>
    rw [List.map_cons, List.flatMap_cons, ← ih]
    simp [String.join_cons]

def render (file routeId : String) (entries : List Entry) : Report :=
  let covered := (entries.filter Entry.isCovered).length
  let total := entries.length
  { text := unlines (Report.lines file routeId entries covered total), covered, total }

/-- A report calls a route fully covered when every entry is covered. -/
theorem isFullyCovered_render_iff (file routeId : String) (entries : List Entry) :
    (render file routeId entries).isFullyCovered = true ↔
      ∀ e ∈ entries, e.isCovered = true := by
  unfold Report.isFullyCovered render
  rw [beq_iff_eq]
  exact List.length_filter_eq_length_iff

end RouteCoverage
