import Mathlib.Data.List.Perm.Basic

/-!
# Passes that stop at the first failure

A pass over a list asks for an answer to every element and stops at the first one that fails.  It
succeeds when every answer does, with the answers in order (`mapM_eq_ok_iff`); otherwise the first
element whose answer is a failure decides, whatever stands after it (`mapM_eq_error_iff`).
-/

namespace RouteCoverage

variable {α β ε : Type} {f : α → Except ε β} {l : List α}

theorem mapM_eq_ok_iff {ys : List β} : l.mapM f = .ok ys ↔ l.map f = ys.map .ok := by
  induction l generalizing ys with
  | nil =>
      rw [List.mapM_nil, List.map_nil, eq_comm (a := []), List.map_eq_nil_iff]
      constructor
      · intro h
        cases h
        rfl
      · rintro rfl
        rfl
  | cons a l ih =>
      rw [List.mapM_cons, List.map_cons]
      constructor
      · intro h
        cases hfirst : f a with
        | error e =>
            rw [hfirst] at h
            cases h
        | ok y =>
            cases hrest : l.mapM f with
            | error e =>
                rw [hfirst, hrest] at h
                cases h
            | ok rest =>
                rw [hfirst, hrest] at h
                cases h
                rw [List.map_cons, ih.mp hrest]
      · intro h
        cases ys with
        | nil => cases h
        | cons y ys =>
            obtain ⟨hfirst, hrest⟩ := List.cons_eq_cons.mp h
            rw [hfirst, ih.mpr hrest]
            rfl

theorem exists_answer {ys : List β} (h : l.map f = ys.map .ok) {a : α} (ha : a ∈ l) :
    ∃ y ∈ ys, f a = .ok y := by
  have hanswer : f a ∈ l.map f := List.mem_map_of_mem ha
  rw [h] at hanswer
  obtain ⟨y, hy, hfa⟩ := List.mem_map.mp hanswer
  exact ⟨y, hy, hfa.symm⟩

theorem exists_asked {ys : List β} (h : l.map f = ys.map .ok) {y : β} (hy : y ∈ ys) :
    ∃ a ∈ l, f a = .ok y := by
  have hanswer : .ok y ∈ ys.map (Except.ok (ε := ε)) := List.mem_map_of_mem hy
  rw [← h] at hanswer
  exact List.mem_map.mp hanswer

theorem exists_mapM_eq_ok (h : ∀ a ∈ l, ∃ y, f a = .ok y) : ∃ ys, l.mapM f = .ok ys := by
  induction l with
  | nil => exact ⟨[], rfl⟩
  | cons a l ih =>
      obtain ⟨y, hy⟩ := h a List.mem_cons_self
      obtain ⟨ys, hys⟩ := ih fun b hb => h b (List.mem_cons_of_mem a hb)
      exact ⟨y :: ys, mapM_eq_ok_iff.mpr (by rw [List.map_cons, hy, mapM_eq_ok_iff.mp hys]; rfl)⟩

/-- The first element whose answer is a failure decides. -/
theorem mapM_eq_error_iff {e : ε} : l.mapM f = .error e ↔
    ∃ before a after, l = before ++ a :: after ∧ (∀ b ∈ before, ∃ y, f b = .ok y) ∧
      f a = .error e := by
  constructor
  · intro h
    induction l with
    | nil => cases h
    | cons a l ih =>
        rw [List.mapM_cons] at h
        cases hfirst : f a with
        | error e' =>
            rw [hfirst] at h
            cases h
            exact ⟨[], a, l, rfl, by simp, hfirst⟩
        | ok y =>
            cases hrest : l.mapM f with
            | ok rest =>
                rw [hfirst, hrest] at h
                cases h
            | error e' =>
                rw [hfirst, hrest] at h
                cases h
                obtain ⟨before, b, after, rfl, hbefore, hb⟩ := ih hrest
                refine ⟨a :: before, b, after, rfl, fun c hc => ?_, hb⟩
                rcases List.mem_cons.mp hc with rfl | hc
                · exact ⟨y, hfirst⟩
                · exact hbefore c hc
  · rintro ⟨before, a, after, rfl, hbefore, ha⟩
    obtain ⟨ys, hys⟩ := exists_mapM_eq_ok hbefore
    rw [List.mapM_append, hys, List.mapM_cons, ha]
    rfl

/-- Answers that all succeed, taken in another order, are the same answers in another order. -/
theorem exists_perm_of_perm_map_ok {answers : List (Except ε β)} {ys : List β}
    (h : answers.Perm (ys.map .ok)) : ∃ ys' : List β, answers = ys'.map .ok ∧ ys'.Perm ys := by
  obtain ⟨ys', hys'⟩ : ∃ ys', answers.mapM id = .ok ys' := exists_mapM_eq_ok fun a ha => by
    obtain ⟨y, -, hy⟩ := List.mem_map.mp (h.mem_iff.mp ha)
    exact ⟨y, hy.symm⟩
  have hanswers : answers = ys'.map .ok := by rw [← mapM_eq_ok_iff.mp hys', List.map_id]
  rw [hanswers, List.map_perm_map_iff fun _ _ => Except.ok.inj] at h
  exact ⟨ys', hanswers, h⟩

end RouteCoverage
