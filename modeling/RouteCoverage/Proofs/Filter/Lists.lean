import RouteCoverage.Filter

/-!
# Laws of include and exclude lists

A list of patterns is a text with commas.  Writing two lists one after the other, with a comma
between them, puts their patterns one after the other (`FilterSpec.patterns_comma`), and a file is
accepted if no pattern of the exclude list matches one of its names and, where there is an include
list, some pattern of that one does (`FileFilter.accepts_withLists_iff`).  All laws of the lists
follow from these two facts; `FileFilter.laws_of_lists` puts them together.
-/

namespace RouteCoverage

/-! ### Blanks around a text -/

theorem trimBlank_blank_append {before : List Char} (s : List Char)
    (h : ∀ c ∈ before, isBlank c = true) : trimBlank (before ++ s) = trimBlank s := by
  rw [trimBlank, List.dropWhile_append_of_pos h, ← trimBlank]

theorem dropWhile_isBlank {s : List Char} (h : ∀ c ∈ s, isBlank c = true) :
    s.dropWhile isBlank = [] := by
  rw [← List.append_nil s, List.dropWhile_append_of_pos h]
  rfl

theorem trimBlank_eq_nil {s : List Char} (h : ∀ c ∈ s, isBlank c = true) : trimBlank s = [] := by
  rw [trimBlank, dropWhile_isBlank h]
  rfl

theorem trimBlank_append_blank {after : List Char} (s : List Char)
    (h : ∀ c ∈ after, isBlank c = true) : trimBlank (s ++ after) = trimBlank s := by
  unfold trimBlank
  rw [List.dropWhile_append]
  split
  · next hs =>
      rw [List.isEmpty_iff.mp hs, dropWhile_isBlank h]
  · rw [List.reverse_append,
      List.dropWhile_append_of_pos fun c hc => h c (List.mem_reverse.mp hc)]

namespace FilterSpec

/-! ### The entries of a list -/

theorem entries_eq {list : String} {pieces : List (List Char)}
    (h : splitAt ',' list.toList = pieces) :
    entries list = ((pieces.map trimBlank).filter (· ≠ [])).map String.ofList := by
  rw [entries, h]

theorem entries_comma (a b : String) : entries (a ++ "," ++ b) = entries a ++ entries b := by
  have hsplit : splitAt ',' (a ++ "," ++ b).toList =
      splitAt ',' a.toList ++ splitAt ',' b.toList := by
    rw [String.toList_append, String.toList_append, List.append_assoc]
    exact splitAt_append_cons ',' a.toList b.toList
  rw [entries_eq hsplit, List.map_append, List.filter_append, List.map_append]
  rfl

theorem patterns_comma [Dialect] (a b : String) :
    patterns (a ++ "," ++ b) = patterns a ++ patterns b := by
  rw [patterns, entries_comma, List.map_append]
  rfl

theorem comma_not_mem {s : String} (h : ∀ c ∈ s.toList, isBlank c = true) : ',' ∉ s.toList :=
  fun hc => absurd (h ',' hc) (by decide)

theorem entries_blank_append {before : String} (a : String)
    (h : ∀ c ∈ before.toList, isBlank c = true) : entries (before ++ a) = entries a := by
  obtain ⟨first, rest, ha⟩ := List.exists_cons_of_ne_nil (splitAt_ne_nil ',' a.toList)
  have hsplit : splitAt ',' (before ++ a).toList = (before.toList ++ first) :: rest := by
    rw [String.toList_append, splitAt_append_left (comma_not_mem h) ha]
  rw [entries_eq hsplit, entries_eq ha, List.map_cons, List.map_cons, trimBlank_blank_append _ h]

theorem entries_append_blank {after : String} (a : String)
    (h : ∀ c ∈ after.toList, isBlank c = true) : entries (a ++ after) = entries a := by
  rcases List.eq_nil_or_concat (splitAt ',' a.toList) with ha | ⟨front, last, ha⟩
  · exact absurd ha (splitAt_ne_nil ',' a.toList)
  · rw [List.concat_eq_append] at ha
    have hsplit : splitAt ',' (a ++ after).toList = front ++ [last ++ after.toList] := by
      rw [String.toList_append, splitAt_append_right (comma_not_mem h) ha]
    rw [entries_eq hsplit, entries_eq ha, List.map_append, List.map_append, List.map_singleton,
      List.map_singleton, trimBlank_append_blank _ h]

theorem entries_eq_nil {a : String} (h : ∀ c ∈ a.toList, isBlank c = true ∨ c = ',') :
    entries a = [] := by
  have hpieces : ∀ piece ∈ splitAt ',' a.toList, trimBlank piece = [] := by
    intro piece hpiece
    refine trimBlank_eq_nil fun c hc => ?_
    obtain ⟨hmem, hne⟩ := mem_of_mem_splitAt hpiece hc
    exact (h c hmem).resolve_right hne
  rw [entries, List.map_eq_nil_iff, List.filter_eq_nil_iff]
  intro piece hpiece
  obtain ⟨original, horiginal, rfl⟩ := List.mem_map.mp hpiece
  simp [hpieces original horiginal]

end FilterSpec

namespace FileFilter

/-! ### What a list says about a file -/

variable [Dialect]

/-- The filter of the same project with the lists that two texts give. -/
def withLists (f : FileFilter) (includes excludes : Option String) : FileFilter :=
  { f with spec := .ofLists includes excludes }

/-- A pattern of a list matches one of the names of a file. -/
def Hits (f : FileFilter) (list : String) (path : Path) : Prop :=
  ∃ p ∈ FilterSpec.patterns list, ∃ name ∈ f.candidates path, p.isMatch name = true

variable {f : FileFilter} {a b : String} {path : Path}

theorem anyMatch_iff_hits :
    FilterSpec.anyMatch (FilterSpec.patterns a) (f.candidates path) = true ↔ f.Hits a path := by
  unfold FilterSpec.anyMatch Hits
  simp only [List.any_eq_true]

theorem hits_comma : f.Hits (a ++ "," ++ b) path ↔ f.Hits a path ∨ f.Hits b path := by
  unfold Hits
  rw [FilterSpec.patterns_comma]
  simp only [List.mem_append, or_and_right, exists_or]

/-- Only which entries a list has matters to what it says about files. -/
theorem hits_congr (h : ∀ entry, entry ∈ FilterSpec.entries a ↔ entry ∈ FilterSpec.entries b) :
    f.Hits a path ↔ f.Hits b path := by
  unfold Hits FilterSpec.patterns
  simp only [List.mem_map, h]

theorem not_hits_of_blank (h : ∀ c ∈ a.toList, isBlank c = true ∨ c = ',') :
    ¬ f.Hits a path := by
  rintro ⟨p, hp, -⟩
  rw [FilterSpec.patterns, FilterSpec.entries_eq_nil h] at hp
  cases hp

/-- Excludes come first: a file is accepted if no exclude list says anything about it, and an
include list, if there is one, does. -/
theorem accepts_withLists_iff {includes excludes : Option String} :
    (f.withLists includes excludes).accepts path = true ↔
      (∀ list ∈ excludes, ¬ f.Hits list path) ∧ ∀ list ∈ includes, f.Hits list path := by
  have hnames : (f.withLists includes excludes).candidates path = f.candidates path := rfl
  have hspec : (f.withLists includes excludes).spec = .ofLists includes excludes := rfl
  unfold accepts
  rw [hnames, hspec]
  cases includes <;> cases excludes <;>
    simp [FilterSpec.ofLists, FilterSpec.isUnrestricted, FilterSpec.accepts,
      ← anyMatch_iff_hits]

/-- Lists that say the same about a file are interchangeable. -/
theorem accepts_congr {includes excludes : Option String} (h : f.Hits a path ↔ f.Hits b path) :
    (f.withLists (some a) excludes).accepts path = (f.withLists (some b) excludes).accepts path ∧
    (f.withLists includes (some a)).accepts path =
      (f.withLists includes (some b)).accepts path := by
  constructor
  · rw [Bool.eq_iff_iff, accepts_withLists_iff, accepts_withLists_iff]
    simp only [Option.mem_some_iff, forall_eq', h]
  · rw [Bool.eq_iff_iff, accepts_withLists_iff, accepts_withLists_iff]
    simp only [Option.mem_some_iff, forall_eq', h]

theorem accepts_includes_comma (f : FileFilter) (a b : String) (excludes : Option String)
    (path : Path) :
    (f.withLists (some (a ++ "," ++ b)) excludes).accepts path =
      ((f.withLists (some a) excludes).accepts path ||
        (f.withLists (some b) excludes).accepts path) := by
  rw [Bool.eq_iff_iff, Bool.or_eq_true]
  simp only [accepts_withLists_iff, Option.mem_some_iff, forall_eq', hits_comma, and_or_left]

theorem accepts_excludes_comma (f : FileFilter) (a b : String) (includes : Option String)
    (path : Path) :
    (f.withLists includes (some (a ++ "," ++ b))).accepts path =
      ((f.withLists includes (some a)).accepts path &&
        (f.withLists includes (some b)).accepts path) := by
  rw [Bool.eq_iff_iff, Bool.and_eq_true]
  simp only [accepts_withLists_iff, Option.mem_some_iff, forall_eq', hits_comma, not_or]
  exact and_and_right

theorem accepts_of_accepts_excludes {includes : Option String}
    (h : (f.withLists includes (some a)).accepts path = true) :
    (f.withLists includes none).accepts path = true := by
  rw [accepts_withLists_iff] at h ⊢
  exact ⟨fun _ hlist => (nomatch hlist), h.2⟩

/-- Filtering with two exclude lists is filtering with the one and then with the other. -/
theorem filter_excludes_comma (f : FileFilter) (a b : String) (includes : Option String)
    (paths : List Path) :
    (f.withLists includes (some (a ++ "," ++ b))).filter paths =
      (f.withLists includes (some b)).filter ((f.withLists includes (some a)).filter paths) := by
  unfold filter
  rw [List.filter_filter]
  refine List.filter_congr fun path _ => ?_
  rw [accepts_excludes_comma, Bool.and_comm]

/-- The laws of include and exclude lists, for every project and all texts.  Two lists with a comma
between them have the patterns of both.  As include lists they let in what one of them lets in; as
exclude lists they keep out what one of them keeps out.  Of a list only its entries matter, in
whatever order and however often, without the blanks around them, and without empty ones.  So more
includes never reject a file, more excludes never let one in, an exclude that hits a file rejects
it whatever the includes are, and an include list without entries rejects everything.  Filtering
with two exclude lists is filtering twice, and keeps the order. -/
theorem laws_of_lists (f : FileFilter) (a b : String) (includes excludes : Option String) :
    (FilterSpec.ofLists (some (a ++ "," ++ b)) excludes =
        ⟨some (FilterSpec.patterns a ++ FilterSpec.patterns b), excludes.map FilterSpec.patterns⟩ ∧
      FilterSpec.ofLists includes (some (a ++ "," ++ b)) =
        ⟨includes.map FilterSpec.patterns,
          some (FilterSpec.patterns a ++ FilterSpec.patterns b)⟩) ∧
    (∀ path,
      (f.withLists (some (a ++ "," ++ b)) excludes).accepts path =
          ((f.withLists (some a) excludes).accepts path ||
            (f.withLists (some b) excludes).accepts path) ∧
        (f.withLists includes (some (a ++ "," ++ b))).accepts path =
          ((f.withLists includes (some a)).accepts path &&
            (f.withLists includes (some b)).accepts path)) ∧
    ((∀ entry, entry ∈ FilterSpec.entries a ↔ entry ∈ FilterSpec.entries b) → ∀ path,
      (f.withLists (some a) excludes).accepts path =
          (f.withLists (some b) excludes).accepts path ∧
        (f.withLists includes (some a)).accepts path =
          (f.withLists includes (some b)).accepts path) ∧
    (∀ before after : String, (∀ c ∈ before.toList, isBlank c = true) →
      (∀ c ∈ after.toList, isBlank c = true) →
        FilterSpec.entries (before ++ a ++ after) = FilterSpec.entries a) ∧
    ((∀ c ∈ b.toList, isBlank c = true ∨ c = ',') →
      FilterSpec.entries (a ++ "," ++ b) = FilterSpec.entries a ∧
        FilterSpec.entries (b ++ "," ++ a) = FilterSpec.entries a ∧
        ∀ path, (f.withLists (some b) excludes).accepts path = false) ∧
    (∀ path,
      ((f.withLists (some a) excludes).accepts path = true →
        (f.withLists (some (a ++ "," ++ b)) excludes).accepts path = true) ∧
      ((f.withLists includes (some a)).accepts path = false →
        (f.withLists includes (some (a ++ "," ++ b))).accepts path = false) ∧
      ((f.withLists includes none).accepts path = false →
        (f.withLists includes (some a)).accepts path = false) ∧
      ((∃ p ∈ FilterSpec.patterns a, ∃ name ∈ f.candidates path, p.isMatch name = true) →
        (f.withLists includes (some a)).accepts path = false)) ∧
    ∀ paths,
      (f.withLists includes (some (a ++ "," ++ b))).filter paths =
          (f.withLists includes (some b)).filter
            ((f.withLists includes (some a)).filter paths) ∧
        ((f.withLists includes (some (a ++ "," ++ b))).filter paths).Sublist paths := by
  refine ⟨⟨?_, ?_⟩, fun path => ⟨accepts_includes_comma f a b excludes path,
      accepts_excludes_comma f a b includes path⟩,
    fun h path => accepts_congr (hits_congr h), fun before after hbefore hafter => ?_,
    fun hb => ⟨?_, ?_, fun path => ?_⟩, fun path => ⟨fun h => ?_, fun h => ?_, fun h => ?_,
      fun h => ?_⟩, fun paths => ⟨filter_excludes_comma f a b includes paths,
        List.filter_sublist⟩⟩
  · rw [← FilterSpec.patterns_comma]
    rfl
  · rw [← FilterSpec.patterns_comma]
    rfl
  · rw [FilterSpec.entries_append_blank _ hafter, FilterSpec.entries_blank_append _ hbefore]
  · rw [FilterSpec.entries_comma, FilterSpec.entries_eq_nil hb, List.append_nil]
  · rw [FilterSpec.entries_comma, FilterSpec.entries_eq_nil hb, List.nil_append]
  · exact Bool.eq_false_iff.mpr fun haccepts =>
      not_hits_of_blank hb ((accepts_withLists_iff.mp haccepts).2 b rfl)
  · rw [accepts_includes_comma, h, Bool.true_or]
  · rw [accepts_excludes_comma, h, Bool.false_and]
  · refine Bool.eq_false_iff.mpr fun haccepts => ?_
    rw [accepts_of_accepts_excludes haccepts] at h
    exact Bool.noConfusion h
  · exact Bool.eq_false_iff.mpr fun haccepts => (accepts_withLists_iff.mp haccepts).1 a rfl h

end FileFilter

end RouteCoverage
