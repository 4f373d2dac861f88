/-!
# Runs of code points

A function on code points that is constant on long runs, kept as the places where its runs start
and looked up by halving.
-/

namespace RouteCoverage

/-- Runs of code points from zero on: where each starts, and its value.  Behind the last run
there is none. -/
structure Runs (α : Type) where
  starts : Array Nat
  values : Array α

namespace Runs

variable {α : Type}

/-- Runs given by their values and lengths. -/
def ofLengths (lengths : List (α × Nat)) : Runs α :=
  let (starts, stop) := lengths.foldl (fun (starts, start) (_, length) =>
    (starts.push start, start + length)) (#[], 0)
  ⟨starts.push stop, (lengths.map (·.1)).toArray⟩

/-- The last of the runs `lo`, ..., `hi - 1` that starts no later than `n`, given that run `lo`
does. -/
def find (r : Runs α) (n lo hi : Nat) : Nat :=
  if lo + 1 < hi then
    let mid := (lo + hi) / 2
    if r.starts[mid]! ≤ n then r.find n mid hi else r.find n lo mid
  else lo
termination_by hi - lo

/-- The run of a code point: how far into the run it is, and the value of the run. -/
def get? (r : Runs α) (n : Nat) : Option (Nat × α) :=
  let i := r.find n 0 r.starts.size
  r.values[i]?.map (n - r.starts[i]!, ·)

/-- The value of a code point, or the given one behind the last run. -/
def value (r : Runs α) (other : α) (n : Nat) : α := ((r.get? n).map (·.2)).getD other

end Runs

end RouteCoverage
