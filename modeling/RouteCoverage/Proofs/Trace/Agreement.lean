import RouteCoverage.Proofs.Trace.Merge

/-!
# Merging runs that agree

Merging is neither commutative nor associative: a position keeps the name of the run that comes
first, and counts only what has this name.  For runs that have the same names wherever they share
a position, the order no longer matters (`mergeAll_perm`), and merging groups of runs and then what
the groups give is merging all of them (`merge_mergeAll`).
-/

namespace RouteCoverage.Trace

/-- Two traces agree when they have the same names at the positions that they share. -/
def Agree (t u : Trace) : Prop :=
  ∀ (i : Nat) (r s : Record), t[i]? = some r → u[i]? = some s → r.name = s.name

def AllAgree (runs : List Trace) : Prop := ∀ t ∈ runs, ∀ u ∈ runs, Agree t u

theorem AllAgree.perm {runs more : List Trace} (h : runs.Perm more) (hagree : AllAgree runs) :
    AllAgree more := fun t ht u hu => hagree t (h.mem_iff.mpr ht) u (h.mem_iff.mpr hu)

/-- Among runs that agree, any run that reaches a position tells its name. -/
theorem AllAgree.nameAt_eq_some_iff {runs : List Trace} (hagree : AllAgree runs) {i : Nat}
    {name : String} :
    nameAt runs i = some name ↔ ∃ t ∈ runs, (t[i]?).map Record.name = some name := by
  constructor
  · exact fun h => List.exists_of_findSome?_eq_some h
  · rintro ⟨t, ht, hname⟩
    obtain ⟨r, hr, rfl⟩ := Option.map_eq_some_iff.mp hname
    cases hfirst : nameAt runs i with
    | none =>
        have hnone := List.findSome?_eq_none_iff.mp hfirst t ht
        rw [hr] at hnone
        cases hnone
    | some first =>
        obtain ⟨u, hu, hfirst⟩ := List.exists_of_findSome?_eq_some hfirst
        obtain ⟨s, hs, rfl⟩ := Option.map_eq_some_iff.mp hfirst
        rw [hagree u hu t ht i s r hs hr]

theorem totalAt_perm {runs more : List Trace} (h : runs.Perm more) (i : Nat) (name : String) :
    totalAt runs i name = totalAt more i name := by
  refine h.foldr_eq' (fun run _ run' _ total => ?_) 0
  omega

/-- Runs that agree can be merged in any order. -/
theorem mergeAll_perm {runs more : List Trace} (h : runs.Perm more) (hagree : AllAgree runs) :
    mergeAll runs = mergeAll more := by
  refine List.ext_getElem? fun i => ?_
  have hname : nameAt runs i = nameAt more i := by
    refine Option.ext fun name => ?_
    simp only [hagree.nameAt_eq_some_iff, (hagree.perm h).nameAt_eq_some_iff, h.mem_iff]
  rw [getElem?_mergeAll, getElem?_mergeAll, hname]
  refine congrArg (Option.map · _) (funext fun name => ?_)
  rw [totalAt_perm h]

theorem nameAt_append (runs more : List Trace) (i : Nat) :
    nameAt (runs ++ more) i = (nameAt runs i).or (nameAt more i) := List.findSome?_append

theorem totalAt_append (runs more : List Trace) (i : Nat) (name : String) :
    totalAt (runs ++ more) i name = totalAt runs i name + totalAt more i name := by
  induction runs with
  | nil => exact (Nat.zero_add _).symm
  | cons run runs ih =>
      unfold totalAt at ih ⊢
      rw [List.cons_append, List.foldr_cons, List.foldr_cons, ih, Nat.add_assoc]

/-- Runs that agree can be merged in groups. -/
theorem merge_mergeAll {runs more : List Trace} (hagree : AllAgree (runs ++ more)) :
    merge (mergeAll runs) (mergeAll more) = mergeAll (runs ++ more) := by
  refine List.ext_getElem? fun i => ?_
  rw [getElem?_merge, getElem?_mergeAll, getElem?_mergeAll, getElem?_mergeAll, nameAt_append]
  cases hruns : nameAt runs i with
  | none =>
      cases hmore : nameAt more i with
      | none => rfl
      | some name =>
          simp [mergeAt, totalAt_append, totalAt_of_nameAt_eq_none hruns]
  | some name =>
      cases hmore : nameAt more i with
      | none =>
          simp [mergeAt, totalAt_append, totalAt_of_nameAt_eq_none hmore]
      | some name' =>
          obtain ⟨t, ht, hname⟩ := List.exists_of_findSome?_eq_some hruns
          obtain ⟨u, hu, hname'⟩ := List.exists_of_findSome?_eq_some hmore
          obtain ⟨r, hr, rfl⟩ := Option.map_eq_some_iff.mp hname
          obtain ⟨s, hs, rfl⟩ := Option.map_eq_some_iff.mp hname'
          have hsame : r.name = s.name :=
            hagree t (List.mem_append_left _ ht) u (List.mem_append_right _ hu) i r s hr hs
          have hhits : ∀ a b : Nat, Hits.ofNat a + Hits.ofNat b = Hits.ofNat (a + b) := by
            intro a b
            apply Hits.ext
            simp only [Hits.count_add, Hits.count_ofNat]
            omega
          simp [mergeAt, hsame, totalAt_append, hhits]

theorem mergeAll_eq_nil_iff {runs : List Trace} : mergeAll runs = [] ↔ ∀ t ∈ runs, t = [] := by
  rw [← List.length_eq_zero_iff, length_mergeAll, longest]
  induction runs with
  | nil => simp
  | cons run runs ih =>
      rw [List.map_cons, List.foldr_cons, List.forall_mem_cons, ← ih, ← List.length_eq_zero_iff]
      omega

end RouteCoverage.Trace
