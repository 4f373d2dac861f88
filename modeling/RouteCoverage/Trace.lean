/-!
# Execution records

A test run leaves, for each route, a list of records: the name of a step and how often it was
hit, in the order of the visits.  Hit counts never exceed `Hits.limit`; adding two of them
stops there.  The records of several runs are merged position by position (`Trace.merge`).
-/

namespace RouteCoverage

/-- How often a step was hit, a number of at most 64 bits. -/
structure Hits where
  count : Nat
  count_le : count ≤ 0xFFFFFFFFFFFFFFFF := by omega
deriving DecidableEq, Repr

namespace Hits

/-- The greatest hit count. -/
def limit : Nat := 0xFFFFFFFFFFFFFFFF

/-- The hit count nearest to `n`: `n` itself, or the limit when `n` exceeds it. -/
def ofNat (n : Nat) : Hits := ⟨min limit n, Nat.min_le_left ..⟩

/-- The hit count `n`, if `n` is one. -/
def ofNat? (n : Nat) : Option Hits :=
  if h : n ≤ limit then some ⟨n, h⟩ else none

/-- No hit. -/
def zero : Hits := ⟨0, Nat.zero_le _⟩

instance : Inhabited Hits := ⟨zero⟩

/-- The sum of two hit counts, stopping at the limit. -/
def add (a b : Hits) : Hits := ofNat (a.count + b.count)

instance : Add Hits := ⟨add⟩

@[simp] theorem count_zero : zero.count = 0 := rfl

@[simp] theorem count_ofNat (n : Nat) : (ofNat n).count = min limit n := rfl

@[simp] theorem count_add (a b : Hits) : (a + b).count = min limit (a.count + b.count) := rfl

@[ext] theorem ext {a b : Hits} (h : a.count = b.count) : a = b := by
  cases a; cases b; simp_all

end Hits

/-- A step that a run visited, and how often it was hit. -/
structure Record where
  name : String
  hits : Hits
deriving DecidableEq, Repr, Inhabited

/-- The records of one route, in the order of the visits. -/
abbrev Trace := List Record

namespace Trace

/-- Folds the records of one run into a merged trace.  Where the names agree the hits add up;
where they differ the record seen first stays; records past the end are appended. -/
def merge : Trace → Trace → Trace
  | [], run => run
  | merged, [] => merged
  | old :: merged, new :: run =>
      (if old.name = new.name then { old with hits := old.hits + new.hits } else old) ::
        merge merged run

def mergeAll (runs : List Trace) : Trace := runs.foldl merge []

@[simp] theorem merge_nil_left (run : Trace) : merge [] run = run := by
  cases run <;> rfl

@[simp] theorem merge_nil_right (merged : Trace) : merge merged [] = merged := by
  cases merged <;> rfl

end Trace

end RouteCoverage
