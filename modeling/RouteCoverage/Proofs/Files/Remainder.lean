import Mathlib.Data.List.DropRight
import RouteCoverage.Proofs.Files.Names

/-!
# What is left of a path behind another one

A path lies under another one if its components begin with those of the other.  What is left is a
path of its own, written as it stands in the whole path, from the first segment behind that names
something to the last one (`IsRemainder`).  There is one such path if any components are left, and
taking the other path off gives it (`exists_stripPrefix?_eq`, `stripPrefix?_of_isRemainder`).
-/

namespace RouteCoverage

namespace Path

/-! ### Segments that name something -/

def named (segments : List String) : List String := segments.filter (!isTrivial ·)

theorem named_append (before after : List String) :
    named (before ++ after) = named before ++ named after :=
  List.filter_append _ _

theorem named_eq_nil_iff {segments : List String} :
    named segments = [] ↔ ∀ s ∈ segments, isTrivial s = true := by
  rw [named, List.filter_eq_nil_iff]
  simp only [Bool.not_eq_true', Bool.not_eq_false]

theorem named_cons {first : String} (h : isTrivial first = false) (rest : List String) :
    named (first :: rest) = first :: named rest :=
  List.filter_cons_of_pos (by rw [h]; rfl)

/-- The segments in front of the first one that names something, and that one with the others. -/
theorem named_takeWhile (segments : List String) :
    named (segments.takeWhile isTrivial) = [] ∧
      named (segments.dropWhile isTrivial) = named segments := by
  have hfront : named (segments.takeWhile isTrivial) = [] :=
    named_eq_nil_iff.mpr fun s hs => List.mem_takeWhile_imp hs
  refine ⟨hfront, ?_⟩
  calc named (segments.dropWhile isTrivial)
      = named (segments.takeWhile isTrivial ++ segments.dropWhile isTrivial) := by
        rw [named_append, hfront, List.nil_append]
    _ = named segments := by rw [List.takeWhile_append_dropWhile]

theorem isTrivial_of_dropWhile {segments rest : List String} {first : String}
    (h : segments.dropWhile isTrivial = first :: rest) : isTrivial first = false := by
  have hfirst := List.head?_dropWhile_not isTrivial segments
  rw [h] at hfirst
  exact hfirst

/-- Segments that begin and end with one that names something. -/
structure IsTrimmed (segments : List String) : Prop where
  ne_nil : segments ≠ []
  head : isTrivial (segments.head ne_nil) = false
  last : isTrivial (segments.getLast ne_nil) = false

theorem IsTrimmed.named_ne_nil {segments : List String} (h : IsTrimmed segments) :
    named segments ≠ [] := by
  intro hnil
  have hhead := named_eq_nil_iff.mp hnil _ (List.head_mem h.ne_nil)
  rw [h.head] at hhead
  exact Bool.false_ne_true hhead

theorem trimEnd_eq_rdropWhile (segments : List String) :
    trimEnd segments = segments.rdropWhile isTrivial := rfl

/-- Only segments that name nothing are taken off the end. -/
theorem exists_trimEnd (segments : List String) :
    ∃ back, segments = trimEnd segments ++ back ∧ named back = [] := by
  refine ⟨segments.rtakeWhile isTrivial, ?_, ?_⟩
  · rw [trimEnd_eq_rdropWhile, List.rdropWhile_append_rtakeWhile]
  · exact named_eq_nil_iff.mpr fun s hs => List.mem_rtakeWhile_imp hs

theorem exists_trim (segments : List String) :
    ∃ front back, segments = front ++ trimEnd (segments.dropWhile isTrivial) ++ back ∧
      named front = [] ∧ named back = [] := by
  obtain ⟨back, hback, htrivial⟩ := exists_trimEnd (segments.dropWhile isTrivial)
  refine ⟨segments.takeWhile isTrivial, back, ?_, (named_takeWhile segments).1, htrivial⟩
  rw [List.append_assoc, ← hback, List.takeWhile_append_dropWhile]

theorem trim_subset (segments : List String) :
    trimEnd (segments.dropWhile isTrivial) ⊆ segments := by
  obtain ⟨front, back, hsplit, -, -⟩ := exists_trim segments
  conv_rhs => rw [hsplit]
  exact List.Subset.trans (List.subset_append_right _ _) (List.subset_append_left _ _)

theorem named_trim (segments : List String) :
    named (trimEnd (segments.dropWhile isTrivial)) = named segments := by
  obtain ⟨front, back, hsplit, hfront, hback⟩ := exists_trim segments
  conv_rhs => rw [hsplit, named_append, named_append, hfront, hback, List.append_nil,
    List.nil_append]

theorem isTrimmed_trim {segments : List String}
    (h : trimEnd (segments.dropWhile isTrivial) ≠ []) :
    IsTrimmed (trimEnd (segments.dropWhile isTrivial)) := by
  refine ⟨h, ?_, ?_⟩
  · obtain ⟨first, rest, hcons⟩ := List.exists_cons_of_ne_nil h
    obtain ⟨back, hback, -⟩ := exists_trimEnd (segments.dropWhile isTrivial)
    rw [hcons, List.cons_append] at hback
    have hhead : (trimEnd (segments.dropWhile isTrivial)).head h = first := by
      simp only [hcons, List.head_cons]
    rw [hhead]
    exact isTrivial_of_dropWhile hback
  · exact Bool.eq_false_iff.mpr (List.rdropWhile_last_not isTrivial _ h)

theorem IsTrimmed.trimEnd_eq {front segments back : List String} (h : IsTrimmed segments)
    (hback : named back = []) : trimEnd (front ++ segments ++ back) = front ++ segments := by
  rw [trimEnd_eq_rdropWhile]
  induction back using List.reverseRecOn with
  | nil =>
      rw [List.append_nil, List.rdropWhile_eq_self_iff]
      intro hne
      rw [List.getLast_append_of_ne_nil hne h.ne_nil, h.last]
      exact Bool.false_ne_true
  | append_singleton back last ih =>
      rw [named_append, List.append_eq_nil_iff] at hback
      rw [← List.append_assoc, List.rdropWhile_concat_pos _ _ last, ih hback.1]
      exact named_eq_nil_iff.mp hback.2 last List.mem_cons_self

/-- Trimmed segments at the end of a list are those that name as much. -/
theorem IsTrimmed.eq_of_append {front front' segments segments' : List String}
    (h : IsTrimmed segments) (h' : IsTrimmed segments')
    (happend : front ++ segments = front' ++ segments')
    (hlength : (named segments).length = (named segments').length) : segments = segments' := by
  -- if one is longer, it begins with segments that name nothing
  have hnil {more long short : List String} (hlong : IsTrimmed long) (heq : long = more ++ short)
      (hlength : (named long).length = (named short).length) : long = short := by
    cases more with
    | nil => exact heq
    | cons first more =>
        subst heq
        have hfirst : isTrivial first = false := hlong.head
        rw [List.cons_append, named_cons hfirst, named_append, List.length_cons,
          List.length_append] at hlength
        omega
  rcases List.append_eq_append_iff.mp happend with ⟨more, -, heq⟩ | ⟨more, -, heq⟩
  · exact hnil h heq hlength
  · exact (hnil h' heq hlength.symm).symm

theorem exists_dropComponents {n : Nat} {segments : List String}
    (h : n ≤ (named segments).length) :
    ∃ front, segments = front ++ dropComponents n segments ∧ (named front).length = n := by
  induction n generalizing segments with
  | zero => exact ⟨[], rfl, rfl⟩
  | succ n ih =>
      obtain ⟨hfront, hrest⟩ := named_takeWhile segments
      have hsplit : segments.takeWhile isTrivial ++ segments.dropWhile isTrivial = segments :=
        List.takeWhile_append_dropWhile
      rw [← hrest] at h
      cases hdrop : segments.dropWhile isTrivial with
      | nil =>
          rw [hdrop] at h
          exact absurd h (Nat.not_succ_le_zero n)
      | cons first rest =>
          have hfirst := isTrivial_of_dropWhile hdrop
          rw [hdrop, named_cons hfirst, List.length_cons] at h
          obtain ⟨front, heq, hlength⟩ := ih (Nat.le_of_succ_le_succ h)
          refine ⟨segments.takeWhile isTrivial ++ first :: front, ?_, ?_⟩
          · rw [dropComponents, hdrop, List.tail_cons, List.append_assoc, List.cons_append, ← heq,
              ← hdrop, hsplit]
          · rw [named_append, hfront, named_cons hfirst, List.nil_append, List.length_cons,
              hlength]

/-! ### Components -/

variable {root path p q : Path}

theorem components_eq (p : Path) :
    p.components = p.anchor.toList ++ (named p.body).map Component.ofSegment := rfl

theorem length_anchor_le (p : Path) : p.anchor.toList.length ≤ 1 := by
  cases p.anchor <;> simp

theorem segments_cases (p : Path) :
    (p.anchor = some .root ∧ p.segments = "" :: p.body ∧ p.body ≠ []) ∨
      (p.anchor = some .current ∧ p.segments = "." :: p.body) ∨
      (p.anchor = none ∧ p.segments = p.body) := by
  unfold body anchor
  cases hsegments : p.segments with
  | nil => exact .inr (.inr ⟨rfl, rfl⟩)
  | cons first rest =>
      by_cases hroot : first = ""
      · subst hroot
        cases rest with
        | nil => exact .inr (.inr ⟨rfl, rfl⟩)
        | cons second rest => exact .inl ⟨rfl, rfl, List.cons_ne_nil _ _⟩
      · by_cases hcurrent : first = "."
        · subst hcurrent
          exact .inr (.inl ⟨rfl, rfl⟩)
        · simp [hroot, hcurrent]

theorem exists_segments_eq (p : Path) : ∃ front, p.segments = front ++ p.body := by
  rcases segments_cases p with ⟨-, h, -⟩ | ⟨-, h⟩ | ⟨-, h⟩
  · exact ⟨[""], h⟩
  · exact ⟨["."], h⟩
  · exact ⟨[], h⟩

theorem components_of_isTrimmed (h : IsTrimmed p.segments) :
    p.components = (named p.segments).map Component.ofSegment := by
  obtain ⟨hne, hhead, -⟩ := h
  rcases segments_cases p with ⟨-, hp, -⟩ | ⟨-, hp⟩ | ⟨hnone, hp⟩
  · simp only [hp, List.head_cons] at hhead
    exact absurd hhead (by decide)
  · simp only [hp, List.head_cons] at hhead
    exact absurd hhead (by decide)
  · rw [components_eq, hnone, hp]
    rfl

theorem components_eq_nil_iff : p.components = [] ↔ p.text = "" := by
  constructor
  · intro h
    rw [components_eq, List.append_eq_nil_iff, List.map_eq_nil_iff] at h
    obtain ⟨hanchor, hbody⟩ := h
    rw [Option.toList_eq_nil_iff] at hanchor
    have hsegments : p.segments = p.body := by
      rcases segments_cases p with ⟨hroot, -⟩ | ⟨hcurrent, -⟩ | ⟨-, hp⟩
      · exact absurd (hroot.symm.trans hanchor) (by simp)
      · exact absurd (hcurrent.symm.trans hanchor) (by simp)
      · exact hp
    rw [← hsegments, named_eq_nil_iff] at hbody
    unfold anchor at hanchor
    cases hp : p.segments with
    | nil => exact absurd (List.map_eq_nil_iff.mp hp) (splitAt_ne_nil _ _)
    | cons first rest =>
        rw [hp] at hbody hanchor
        have hfirst : first = "" ∨ first = "." := by
          simpa [isTrivial] using hbody first List.mem_cons_self
        rcases hfirst with rfl | rfl
        · cases rest with
          | nil => exact text_eq_empty_of_segments hp
          | cons second rest => cases hanchor
        · cases hanchor
  · intro h
    obtain ⟨text⟩ := p
    obtain rfl : text = "" := h
    decide

theorem segments_joinSegments_of_subset {segments : List String} (hne : segments ≠ [])
    (h : segments ⊆ path.segments) : (⟨joinSegments segments⟩ : Path).segments = segments :=
  segments_joinSegments hne fun _ hs => slash_not_mem (h hs)

/-- What is left of segments of a path has the components that the segments name. -/
theorem components_joinSegments_trim {segments : List String} (h : segments ⊆ path.segments) :
    (⟨joinSegments (trimEnd (segments.dropWhile isTrivial))⟩ : Path).components =
      (named segments).map Component.ofSegment := by
  by_cases hne : trimEnd (segments.dropWhile isTrivial) = []
  · have hnil : named segments = [] := by
      rw [← named_trim, hne]
      rfl
    rw [hne, hnil]
    decide
  · have hsegments := segments_joinSegments_of_subset hne
      (List.Subset.trans (trim_subset segments) h)
    rw [components_of_isTrimmed (by rw [hsegments]; exact isTrimmed_trim hne), hsegments,
      named_trim]

/-! ### What is left -/

/-- A path is what is left of another one behind the components of a third one, as it is written
there. -/
structure IsRemainder (root path p : Path) : Prop where
  components : path.components = root.components ++ p.components
  trimmed : IsTrimmed p.segments
  written : ∃ front back, path.segments = front ++ p.segments ++ back ∧
    ∀ s ∈ back, isTrivial s = true

/-- What is left is one path. -/
theorem IsRemainder.unique (h : IsRemainder root path p) (h' : IsRemainder root path q) :
    p = q := by
  have hcomponents : p.components = q.components :=
    List.append_cancel_left (h.components.symm.trans h'.components)
  have hlength : (named p.segments).length = (named q.segments).length := by
    rw [components_of_isTrimmed h.trimmed, components_of_isTrimmed h'.trimmed] at hcomponents
    simpa using congrArg List.length hcomponents
  obtain ⟨front, back, hsegments, hback⟩ := h.written
  obtain ⟨front', back', hsegments', hback'⟩ := h'.written
  have happend : front ++ p.segments = front' ++ q.segments := by
    rw [← h.trimmed.trimEnd_eq (named_eq_nil_iff.mpr hback), ← hsegments,
      ← h'.trimmed.trimEnd_eq (named_eq_nil_iff.mpr hback'), ← hsegments']
  have hsame := h.trimmed.eq_of_append h'.trimmed happend hlength
  have htext : p.text = q.text := by
    rw [← joinSegments_segments p, hsame, joinSegments_segments]
  obtain ⟨text⟩ := p
  exact congrArg Path.mk htext

/-- The segments of a path behind as many components as another path has. -/
def behind (path root : Path) : List String :=
  dropComponents (root.components.length - path.anchor.toList.length) path.body

/-- If a path lies under another one, the segments behind it name the components that are left. -/
theorem exists_append_behind {more : List Component} (hroot : root.components ≠ [])
    (h : path.components = root.components ++ more) :
    (∃ lead, path.segments = lead ++ path.behind root) ∧
      (named (path.behind root)).map Component.ofSegment = more := by
  have hpos : 0 < root.components.length := List.length_pos_iff.mpr hroot
  have hanchor := length_anchor_le path
  have hlength := congrArg List.length h
  rw [components_eq, List.length_append, List.length_append, List.length_map] at hlength
  have hn : root.components.length - path.anchor.toList.length ≤ (named path.body).length := by
    omega
  obtain ⟨front, hfront, hcount⟩ := exists_dropComponents hn
  rw [← behind] at hfront
  obtain ⟨lead, hlead⟩ := exists_segments_eq path
  refine ⟨⟨lead ++ front, by rw [hlead, hfront, List.append_assoc]⟩, ?_⟩
  have hsplit : path.components = (path.anchor.toList ++
      (named front).map Component.ofSegment) ++
        (named (path.behind root)).map Component.ofSegment := by
    rw [components_eq, hfront, named_append, List.map_append, List.append_assoc]
  refine (List.append_inj (h.symm.trans hsplit) ?_).2.symm
  rw [List.length_append, List.length_map, hcount]
  omega

theorem exists_stripPrefix?_eq {more : List Component} (hroot : root.components ≠ [])
    (h : path.components = root.components ++ more) :
    ∃ p, path.stripPrefix? root = some p ∧ p.components = more ∧
      (more ≠ [] → IsRemainder root path p) := by
  obtain ⟨⟨lead, hlead⟩, hmore⟩ := exists_append_behind hroot h
  have hsubset : path.behind root ⊆ path.segments := by
    rw [hlead]
    exact List.subset_append_right _ _
  have hcomponents := components_joinSegments_trim hsubset
  refine ⟨⟨joinSegments (trimEnd ((path.behind root).dropWhile isTrivial))⟩, ?_,
    hcomponents.trans hmore, fun hne => ?_⟩
  · have hprefix : root.components.isPrefixOf path.components = true :=
      List.isPrefixOf_iff_prefix.mpr ⟨more, h.symm⟩
    unfold stripPrefix?
    rw [if_neg hroot, if_pos hprefix]
    rfl
  · have htrim : trimEnd ((path.behind root).dropWhile isTrivial) ≠ [] := by
      intro hnil
      apply hne
      rw [← hmore, ← named_trim, hnil]
      rfl
    obtain ⟨front, back, hsplit, -, hback⟩ := exists_trim (path.behind root)
    have hsegments := segments_joinSegments_of_subset htrim
      (List.Subset.trans (trim_subset _) hsubset)
    refine ⟨by rw [hcomponents, hmore, h], ?_, lead ++ front, back, ?_,
      named_eq_nil_iff.mp hback⟩
    · rw [hsegments]
      exact isTrimmed_trim htrim
    · calc path.segments = lead ++ path.behind root := hlead
        _ = lead ++ (front ++ trimEnd ((path.behind root).dropWhile isTrivial) ++ back) :=
          congrArg (lead ++ ·) hsplit
        _ = lead ++ front ++ (⟨joinSegments
            (trimEnd ((path.behind root).dropWhile isTrivial))⟩ : Path).segments ++ back := by
          rw [hsegments]
          simp only [List.append_assoc]

/-- Taking a path off gives what is left behind it, and nothing else is left. -/
theorem stripPrefix?_of_isRemainder (hroot : root.components ≠ []) (h : IsRemainder root path p) :
    path.stripPrefix? root = some p := by
  obtain ⟨q, hstrip, hcomponents, hremainder⟩ := exists_stripPrefix?_eq hroot h.components
  have hne : p.components ≠ [] := by
    rw [components_of_isTrimmed h.trimmed, ne_eq, List.map_eq_nil_iff]
    exact h.trimmed.named_ne_nil
  rw [hstrip, (hremainder hne).unique h]

end Path

end RouteCoverage
