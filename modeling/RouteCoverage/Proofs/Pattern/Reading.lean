import RouteCoverage.Proofs.Pattern.Locality

/-!
# Reading an expression step by step

`Progress.Reads` says that reading some items of a text leads from one state to another, and
`Progress.readAll?` is the state behind the last item.  Items that have been read can be taken off
the front (`Progress.Reads.readAll?_eq`), and reading comes to an end: either behind the last item,
or at one that cannot be read (`Progress.exists_reads`).
-/

namespace RouteCoverage.Expression

open Reader

variable [Dialect]

namespace Progress

/-- Reading some items of a text leads from one state to another and leaves a rest. -/
inductive Reads : Progress → List Char → Progress → List Char → Prop where
  | refl {p : Progress} {s : List Char} : Reads p s p s
  | step {p p' q : Progress} {c : Char} {s rest s' t : List Char}
      (hnext : p.flags.skip s = c :: rest) (hstep : p.step? c rest = some (p', s'))
      (hreads : Reads p' s' q t) : Reads p s q t

variable {p p' q : Progress} {c : Char} {s rest s' t : List Char}

omit [Dialect] in
theorem suffix_of_skip (f : Flags) (h : f.skip s = c :: rest) : c :: rest <:+ s := by
  rcases skip_cases f s with ⟨d, rest', hs, -, hsuffix⟩ | ⟨hs, -⟩
  · rwa [hs.symm.trans h] at hsuffix
  · rw [hs] at h
    cases h

omit [Dialect] in
/-- What comes next is the same in front of the end of a group. -/
theorem skip_append_of_skip (f : Flags) (h : f.skip s = c :: rest) :
    f.skip (s ++ closing) = c :: (rest ++ closing) := by
  rcases skip_cases f s with ⟨d, rest', hs, hclosing, -⟩ | ⟨hs, -⟩
  · obtain ⟨rfl, rfl⟩ := List.cons_eq_cons.mp (hs.symm.trans h)
    exact hclosing
  · rw [hs] at h
    cases h

theorem length_lt_of_step (hnext : p.flags.skip s = c :: rest)
    (hstep : p.step? c rest = some (p', s')) : s'.length < s.length := by
  have hrest : (c :: rest).length ≤ s.length := (suffix_of_skip p.flags hnext).length_le
  have hs' : s'.length ≤ rest.length := ((p.local_step? c).suffix hstep).length_le
  rw [List.length_cons] at hrest
  omega

theorem run?_succ_of_skip_nil {n : Nat} (h : p.flags.skip s = []) : run? (n + 1) p s = some p := by
  rw [run?, h]

theorem run?_succ_of_skip_cons {n : Nat} (h : p.flags.skip s = c :: rest) :
    run? (n + 1) p s = (p.step? c rest).bind fun x => run? n x.1 x.2 := by
  rw [run?, h]
  rfl

/-- With more fuel than the text has characters, the fuel does not matter. -/
theorem run?_eq_of_lt {n m : Nat} (hn : s.length < n) (hm : s.length < m) :
    run? n p s = run? m p s := by
  induction n generalizing m p s with
  | zero => exact absurd hn (Nat.not_lt_zero _)
  | succ n ih =>
      obtain ⟨m, rfl⟩ : ∃ m', m = m' + 1 := ⟨m - 1, by omega⟩
      cases hskip : p.flags.skip s with
      | nil => rw [run?_succ_of_skip_nil hskip, run?_succ_of_skip_nil hskip]
      | cons c rest =>
          rw [run?_succ_of_skip_cons hskip, run?_succ_of_skip_cons hskip]
          cases hstep : p.step? c rest with
          | none => rfl
          | some x =>
              have hlt : x.2.length < s.length := length_lt_of_step hskip hstep
              exact ih (by omega) (by omega)

theorem readAll?_of_skip_nil (h : p.flags.skip s = []) : p.readAll? s = some p :=
  run?_succ_of_skip_nil h

theorem readAll?_of_skip_cons (h : p.flags.skip s = c :: rest) :
    p.readAll? s = (p.step? c rest).bind fun x => x.1.readAll? x.2 := by
  rw [readAll?, run?_succ_of_skip_cons h]
  cases hstep : p.step? c rest with
  | none => rfl
  | some x => exact run?_eq_of_lt (length_lt_of_step h hstep) (Nat.lt_succ_self _)

theorem Reads.readAll?_eq (h : Reads p s q t) : p.readAll? s = q.readAll? t := by
  induction h with
  | refl => rfl
  | step hnext hstep _ ih => rw [readAll?_of_skip_cons hnext, hstep, Option.bind_some, ih]

theorem Reads.trans {r : Progress} {u : List Char} (h : Reads p s q t) (h' : Reads q t r u) :
    Reads p s r u := by
  induction h with
  | refl => exact h'
  | step hnext hstep _ ih => exact .step hnext hstep (ih h')

omit [Dialect] in
theorem skip_nil (f : Flags) : f.skip [] = [] := by
  unfold Flags.skip
  cases f.verbose <;> rfl

theorem readAll?_nil (p : Progress) : p.readAll? [] = some p := readAll?_of_skip_nil (skip_nil _)

theorem reads_dollar (p : Progress) : Reads p ['$'] (p.addLook p.flags.dollar) [] := by
  have hskip : p.flags.skip ['$'] = ['$'] := by
    unfold Flags.skip
    cases p.flags.verbose <;> rfl
  exact .step hskip rfl .refl

theorem readAll?_dollar (p : Progress) : p.readAll? ['$'] = some (p.addLook p.flags.dollar) :=
  p.reads_dollar.readAll?_eq.trans (readAll?_nil _)

theorem exists_reads (p : Progress) (s : List Char) : ∃ q t, Reads p s q t ∧
    (q.flags.skip t = [] ∨ ∃ c rest, q.flags.skip t = c :: rest ∧ q.step? c rest = none) := by
  generalize hn : s.length = n
  induction n using Nat.strongRecOn generalizing p s with
  | ind n ih =>
      subst hn
      cases hskip : p.flags.skip s with
      | nil => exact ⟨p, s, .refl, .inl hskip⟩
      | cons c rest =>
          cases hstep : p.step? c rest with
          | none => exact ⟨p, s, .refl, .inr ⟨c, rest, hskip, hstep⟩⟩
          | some x =>
              obtain ⟨q, t, hreads, hend⟩ := ih _ (length_lt_of_step hskip hstep) x.1 x.2 rfl
              exact ⟨q, t, .step hskip hstep hreads, hend⟩

end Progress

/-- The part that a text writes is what stands on the outermost level behind its last item. -/
theorem part?_eq (s : List Char) :
    part? s = (Progress.start.readAll? s).bind fun p =>
      if p.groups = [] then some p.level.toPart else none := by
  unfold part?
  cases Progress.start.readAll? s with
  | none => rfl
  | some p =>
      show (guard (p.groups.isEmpty = true) >>= fun _ => some p.level.toPart) = _
      rw [Option.bind_some]
      by_cases h : p.groups = []
      · rw [guard_bind_of (List.isEmpty_iff.mpr h), if_pos h]
      · rw [guard_bind_of_not fun hempty => h (List.isEmpty_iff.mp hempty), if_neg h]

theorem regex?_eq_some_iff {s : List Char} {r : Regex} :
    regex? s = some r ↔ ∃ part, part? s = some part ∧
      (part.depth ≤ depthLimit ∧ Dialect.fits s = true) ∧ part.regex = r := by
  unfold regex?
  rw [Option.bind_eq_bind, Option.bind_eq_some_iff]
  refine exists_congr fun part => and_congr_right fun _ => ?_
  rw [guard_bind_eq_some_iff, Bool.and_eq_true, decide_eq_true_iff]
  exact and_congr_right fun _ => Option.some_inj

end RouteCoverage.Expression
