import RouteCoverage.Pattern.Usual
import RouteCoverage.Proofs.Files.Remainder
import RouteCoverage.Proofs.Filter.Lists
import RouteCoverage.Settings.Layout

/-!
# Files by their paths below a root

One of the names that a filter knows a file under is its path below a root: below the first of the
declared roots that holds it, component by component (`FileFilter.stripRoot_cases`).  So an include
entry with the path of a file below its root lets the file in, unless an earlier root holds the file
as well (`FileFilter.accepts_below_root`).
-/

namespace RouteCoverage

namespace FileFilter

/-- A root holds a path, which is seen from the base directory as the root is: the root is not the
base directory itself, and its components come first in the path. -/
def Holds (basedir relative root : Path) : Prop :=
  (root.relativeTo basedir).text ≠ "" ∧
    (root.relativeTo basedir).components <+: relative.components

/-- What is left of a path below one root, if the root holds it. -/
def below? (basedir relative root : Path) : Option Path :=
  if (root.relativeTo basedir).text.isEmpty then none
  else relative.stripPrefix? (root.relativeTo basedir)

variable {basedir relative root p : Path} {roots before after : List Path}

theorem stripRoot_eq :
    stripRoot basedir roots relative =
      (roots.findSome? (below? basedir relative)).getD relative := rfl

theorem below?_eq_none (h : ¬ Holds basedir relative root) :
    below? basedir relative root = none := by
  unfold below?
  by_cases hempty : (root.relativeTo basedir).text = ""
  · rw [if_pos (by simpa using hempty)]
  · rw [if_neg (by simpa using hempty)]
    have hcomponents := mt Path.components_eq_nil_iff.mp hempty
    have hprefix : ¬ (root.relativeTo basedir).components.isPrefixOf relative.components = true :=
      fun hprefix => h ⟨hempty, List.isPrefixOf_iff_prefix.mp hprefix⟩
    rw [Path.stripPrefix?, if_neg hcomponents, if_neg hprefix]

theorem exists_below?_eq (h : Holds basedir relative root) :
    ∃ p, below? basedir relative root = some p ∧
      relative.components = (root.relativeTo basedir).components ++ p.components := by
  obtain ⟨hempty, more, hmore⟩ := h
  obtain ⟨p, hstrip, hp, -⟩ :=
    Path.exists_stripPrefix?_eq (mt Path.components_eq_nil_iff.mp hempty) hmore.symm
  refine ⟨p, ?_, by rw [hp, hmore]⟩
  unfold below?
  rw [if_neg (by simpa using hempty), hstrip]

theorem below?_of_isRemainder (hroot : (root.relativeTo basedir).text ≠ "")
    (h : Path.IsRemainder (root.relativeTo basedir) relative p) :
    below? basedir relative root = some p := by
  unfold below?
  rw [if_neg (by simpa using hroot)]
  exact Path.stripPrefix?_of_isRemainder (mt Path.components_eq_nil_iff.mp hroot) h

/-- No root is taken off by a part of a component: either no root holds a path, and it stays as it
is, or the components of the first one that does are taken off it. -/
theorem stripRoot_cases (basedir : Path) (roots : List Path) (relative : Path) :
    ((∀ root ∈ roots, ¬ Holds basedir relative root) ∧
      stripRoot basedir roots relative = relative) ∨
    ∃ before root after, roots = before ++ root :: after ∧
      (∀ root ∈ before, ¬ Holds basedir relative root) ∧ Holds basedir relative root ∧
      relative.components =
        (root.relativeTo basedir).components ++ (stripRoot basedir roots relative).components := by
  rw [stripRoot_eq]
  have hholds {root : Path} (h : below? basedir relative root = none) :
      ¬ Holds basedir relative root := by
    intro hroot
    obtain ⟨p, hp, -⟩ := exists_below?_eq hroot
    rw [h] at hp
    cases hp
  cases hfind : roots.findSome? (below? basedir relative) with
  | none =>
      have hnone := List.findSome?_eq_none_iff.mp hfind
      exact .inl ⟨fun root hroot => hholds (hnone root hroot), rfl⟩
  | some p =>
      obtain ⟨before, root, after, hroots, hp, hbefore⟩ := List.findSome?_eq_some_iff.mp hfind
      refine .inr ⟨before, root, after, hroots, fun root hroot => hholds (hbefore root hroot), ?_⟩
      by_cases hroot : Holds basedir relative root
      · obtain ⟨q, hq, hcomponents⟩ := exists_below?_eq hroot
        rw [hp, Option.some.injEq] at hq
        rw [Option.getD_some, hq]
        exact ⟨hroot, hcomponents⟩
      · rw [below?_eq_none hroot] at hp
        cases hp

/-- What is left below a root is what is left below all roots, if every earlier root that holds the
path has the same components. -/
theorem stripRoot_of_isRemainder (hroot : (root.relativeTo basedir).text ≠ "")
    (h : Path.IsRemainder (root.relativeTo basedir) relative p)
    (hbefore : ∀ first ∈ before, Holds basedir relative first →
      (first.relativeTo basedir).components = (root.relativeTo basedir).components) :
    stripRoot basedir (before ++ root :: after) relative = p := by
  suffices hfind : (before ++ root :: after).findSome? (below? basedir relative) = some p by
    rw [stripRoot_eq, hfind, Option.getD_some]
  induction before with
  | nil => rw [List.nil_append, List.findSome?_cons, below?_of_isRemainder hroot h]
  | cons first before ih =>
      have hrest := ih fun root hmem => hbefore root (List.mem_cons_of_mem first hmem)
      rw [List.cons_append, List.findSome?_cons]
      by_cases hfirst : Holds basedir relative first
      · have hcomponents : relative.components =
            (first.relativeTo basedir).components ++ p.components := by
          rw [hbefore first List.mem_cons_self hfirst, h.components]
        rw [below?_of_isRemainder hfirst.1 ⟨hcomponents, h.trimmed, h.written⟩]
      · rw [below?_eq_none hfirst]
        exact hrest

/-! ### An include entry with the path of a file -/

theorem entries_eq_singleton {text : String} (hempty : text ≠ "") (hcomma : ',' ∉ text.toList)
    (htrim : trimBlank text.toList = text.toList) : FilterSpec.entries text = [text] := by
  have hkept : text.toList ≠ [] := by
    rw [ne_eq, String.toList_eq_nil_iff]
    exact hempty
  rw [FilterSpec.entries_eq (splitAt_of_not_mem hcomma), List.map_singleton, htrim,
    List.filter_cons_of_pos (by simpa using hkept), List.filter_nil, List.map_singleton,
    String.ofList_toList]

theorem normalized_eq (h : '\\' ∉ p.text.toList) : p.normalized = p.text := by
  have hmap : p.text.toList.map (fun c => if c = '\\' then '/' else c) = p.text.toList := by
    refine (List.map_congr_left fun c hc => if_neg fun heq => h ?_).trans (List.map_id _)
    rwa [← heq]
  rw [← String.toList_inj, Path.normalized, String.toList_map, hmap]

section

variable [Dialect]

/-- The filter of a project that has a text as its include list, and no exclude list. -/
def including (l : Layout) (text : String) : FileFilter :=
  ⟨l.basedir, l.declaredRoots, .ofLists (some text) none⟩

/-- An include list with one entry lets in what the entry matches. -/
theorem accepts_including_iff {l : Layout} {path : Path} {text : String} (hempty : text ≠ "")
    (hcomma : ',' ∉ text.toList) (htrim : trimBlank text.toList = text.toList) :
    (including l text).accepts path = true ↔
      ∃ name ∈ (including l text).candidates path, (Pattern.ofText text).isMatch name = true := by
  have hpatterns : FilterSpec.patterns text = [Pattern.ofText text] := by
    rw [FilterSpec.patterns, entries_eq_singleton hempty hcomma htrim, List.map_singleton]
  have hhits : (including l text).Hits text path ↔
      ∃ name ∈ (including l text).candidates path, (Pattern.ofText text).isMatch name = true := by
    unfold Hits
    rw [hpatterns]
    simp only [List.mem_singleton, exists_eq_left]
  have haccepts : (including l text).accepts path = true ↔ (including l text).Hits text path := by
    apply (@accepts_withLists_iff _ (including l text) path (some text) none).trans
    simp
  rw [haccepts, hhits]

theorem isMatch_ofText (text : String) : (Pattern.ofText text).isMatch text = true := by
  unfold Pattern.isMatch Pattern.ofText
  rw [beq_self_eq_true, Bool.true_or, Bool.true_or]

/-- A file and its path below a root, in every project.  The include list whose only entry is what
the root leaves of the path lets the file in, if the root is the first of the declared ones that
holds the path (others may hold it before if their components are the same), and also if the entry
is the bare name of the file.  Such a list lets in only what the entry matches: the path as seen
from the base directory, the name of the file, and a third name, which is always that below the
first root that holds the file.  Components are taken off as a whole, and nothing is taken off a
path that no root holds. -/
theorem accepts_below_root (l : Layout) (path : Path) :
    (∀ before root after p, l.declaredRoots = before ++ root :: after →
      (root.relativeTo l.basedir).text ≠ "" →
      Path.IsRemainder (root.relativeTo l.basedir) (path.relativeTo l.basedir) p →
      '\\' ∉ p.text.toList → ',' ∉ p.text.toList → trimBlank p.text.toList = p.text.toList →
      ((∀ first ∈ before, Holds l.basedir (path.relativeTo l.basedir) first →
          (first.relativeTo l.basedir).components = (root.relativeTo l.basedir).components) ∨
        path.fileName? = some p.text) →
      (including l p.text).accepts path = true) ∧
    (∀ text : String, text ≠ "" → ',' ∉ text.toList → trimBlank text.toList = text.toList →
      ((including l text).accepts path = true ↔
        ∃ name ∈ (including l text).candidates path, (Pattern.ofText text).isMatch name = true)) ∧
    ∃ stripped : Path,
      (∀ text, (including l text).candidates path =
        [(path.relativeTo l.basedir).normalized, stripped.normalized, path.fileName?.getD ""]) ∧
      ((∀ root ∈ l.declaredRoots, ¬ Holds l.basedir (path.relativeTo l.basedir) root) ∧
          stripped = path.relativeTo l.basedir ∨
        ∃ before root after, l.declaredRoots = before ++ root :: after ∧
          (∀ first ∈ before, ¬ Holds l.basedir (path.relativeTo l.basedir) first) ∧
          Holds l.basedir (path.relativeTo l.basedir) root ∧
          (path.relativeTo l.basedir).components =
            (root.relativeTo l.basedir).components ++ stripped.components) := by
  refine ⟨fun before root after p hroots hroot h hback hcomma htrim hfirst => ?_,
    fun text hempty hcomma htrim => accepts_including_iff hempty hcomma htrim,
    stripRoot l.basedir l.declaredRoots (path.relativeTo l.basedir), fun text => rfl,
    stripRoot_cases l.basedir l.declaredRoots (path.relativeTo l.basedir)⟩
  have hempty : p.text ≠ "" := by
    intro hempty
    apply h.trimmed.named_ne_nil
    rw [Path.segments, hempty]
    rfl
  refine (accepts_including_iff hempty hcomma htrim).mpr ⟨p.text, ?_, isMatch_ofText p.text⟩
  rcases hfirst with hfirst | hname
  · apply List.mem_cons_of_mem
    show p.text ∈ [(stripRoot l.basedir l.declaredRoots (path.relativeTo l.basedir)).normalized, _]
    rw [hroots, stripRoot_of_isRemainder hroot h hfirst, normalized_eq hback]
    exact List.mem_cons_self
  · apply List.mem_cons_of_mem
    apply List.mem_cons_of_mem
    show p.text ∈ [path.fileName?.getD ""]
    rw [hname, Option.getD_some]
    exact List.mem_cons_self

end

/-- A project with sources in a directory and in another one that lies in it. -/
def nestedRoots : Layout :=
  { basedir := ⟨"/p"⟩
    source := [⟨"/p/src"⟩, ⟨"/p/src/main/java"⟩]
    resource := []
    testSource := []
    testResource := [] }

/-- The path that the first root leaves of a file lets it in. -/
theorem accepts_nestedRoots :
    (including nestedRoots "main/java/x/A.java").accepts ⟨"/p/src/main/java/x/A.java"⟩ =
      true := by
  have hremainder : Path.IsRemainder (Path.relativeTo ⟨"/p/src"⟩ ⟨"/p"⟩)
      (Path.relativeTo ⟨"/p/src/main/java/x/A.java"⟩ ⟨"/p"⟩) ⟨"main/java/x/A.java"⟩ :=
    ⟨by decide +kernel, ⟨by decide +kernel, by decide +kernel, by decide +kernel⟩,
      ["src"], [], by decide +kernel, by simp⟩
  exact (accepts_below_root nestedRoots ⟨"/p/src/main/java/x/A.java"⟩).1 [] ⟨"/p/src"⟩
    [⟨"/p/src/main/java"⟩] ⟨"main/java/x/A.java"⟩ rfl (by decide +kernel) hremainder (by decide)
    (by decide) (by decide) (.inl fun first hfirst => (nomatch hfirst))

/-- The path that the second root leaves of the same file does not let it in. -/
theorem rejects_nestedRoots :
    (⟨"/p/src/main/java"⟩ : Path) ∈ nestedRoots.declaredRoots ∧
      Path.IsRemainder (Path.relativeTo ⟨"/p/src/main/java"⟩ ⟨"/p"⟩)
        (Path.relativeTo ⟨"/p/src/main/java/x/A.java"⟩ ⟨"/p"⟩) ⟨"x/A.java"⟩ ∧
      (including nestedRoots "x/A.java").accepts ⟨"/p/src/main/java/x/A.java"⟩ = false := by
  refine ⟨by decide, ⟨by decide +kernel, ⟨by decide +kernel, by decide +kernel, by decide +kernel⟩,
    ["src", "main", "java"], [], by decide +kernel, by simp⟩, ?_⟩
  decide +kernel

end FileFilter

end RouteCoverage
