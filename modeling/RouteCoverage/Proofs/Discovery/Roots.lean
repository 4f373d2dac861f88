import Mathlib.Data.List.Induction
import Mathlib.Data.List.Sort
import RouteCoverage.Proofs.Discovery.Walk
import RouteCoverage.Proofs.Files.Relisting
import RouteCoverage.Proofs.Text.ByteOrder

/-!
# The files below several roots

The files of several roots are those of each root, one root after the other, and a file that lies
below two of them is listed where it is found first.  So the list is decided by which names lead
from which root to a file (`findFiles_of_roots`): no order in which directories list their entries
has a part in it.  More roots behind the others only make it longer.
-/

namespace RouteCoverage

theorem Path.sameAs_iff {p q : Path} : p.sameAs q = true ↔ p.components = q.components :=
  decide_eq_true_iff

theorem Path.sameAs_comm (p q : Path) : p.sameAs q = q.sameAs p :=
  Bool.eq_iff_iff.mpr (by rw [sameAs_iff, sameAs_iff, eq_comm])

/-! ### Lists without repeats -/

/-- An element behind a list is kept if the list has none like it. -/
theorem eraseDupsBy_append_singleton {α : Type} {r : α → α → Bool}
    (htrans : ∀ a b c, r a b = true → r b c = true → r a c = true) (l : List α) (a : α) :
    (l ++ [a]).eraseDupsBy r = if l.any (r a) then l.eraseDupsBy r else l.eraseDupsBy r ++ [a] := by
  match l with
  | [] => rfl
  | x :: l =>
      rw [List.cons_append, List.eraseDupsBy_cons, List.eraseDupsBy_cons, List.filter_append,
        List.any_cons]
      by_cases hx : r a x = true
      · simp [hx]
      · -- what was taken away as a repeat of `x` is unlike `a`
        have hany : (l.filter fun b => decide (r b x = false)).any (r a) = l.any (r a) := by
          rw [Bool.eq_iff_iff, List.any_eq_true, List.any_eq_true]
          constructor
          · rintro ⟨b, hb, hab⟩
            exact ⟨b, (List.mem_filter.mp hb).1, hab⟩
          · rintro ⟨b, hb, hab⟩
            refine ⟨b, List.mem_filter.mpr ⟨hb, ?_⟩, hab⟩
            exact decide_eq_true (Bool.eq_false_iff.mpr fun hbx => hx (htrans a b x hab hbx))
        rw [Bool.not_eq_true] at hx
        rw [List.filter_cons_of_pos (by simp [hx]), List.filter_nil,
          eraseDupsBy_append_singleton htrans _ a, hany, hx, Bool.false_or]
        split <;> rfl
termination_by l.length
decreasing_by exact Nat.lt_succ_of_le (List.length_filter_le _ l)

theorem withoutRepeats_append_singleton (paths : List Path) (p : Path) :
    withoutRepeats (paths ++ [p]) =
      if paths.any p.sameAs then withoutRepeats paths else withoutRepeats paths ++ [p] := by
  have htrans : ∀ a b c : List Path.Component × Path,
      (a.1 == b.1) = true → (b.1 == c.1) = true → (a.1 == c.1) = true := by
    intro a b c hab hbc
    rw [beq_iff_eq] at hab hbc ⊢
    exact hab.trans hbc
  have hany : (paths.map fun q => (q.components, q)).any
      (fun q => p.components == q.1) = paths.any p.sameAs := by
    rw [List.any_map]
    refine congrArg paths.any (funext fun q => ?_)
    show (p.components == q.components) = decide (p.components = q.components)
    exact Bool.eq_iff_iff.mpr (by rw [beq_iff_eq, decide_eq_true_iff])
  unfold withoutRepeats
  rw [List.map_append, List.map_singleton, eraseDupsBy_append_singleton htrans, hany]
  split
  · rfl
  · rw [List.map_append, List.map_singleton]

theorem withoutRepeats_prefix (paths more : List Path) :
    withoutRepeats paths <+: withoutRepeats (paths ++ more) := by
  induction more using List.reverseRecOn with
  | nil => simp
  | append_singleton more p ih =>
      rw [← List.append_assoc, withoutRepeats_append_singleton]
      split
      · exact ih
      · exact ih.trans (List.prefix_append _ _)

theorem exists_mem_withoutRepeats_iff {paths : List Path} {p : Path} :
    (∃ q ∈ withoutRepeats paths, q.sameAs p) ↔ ∃ q ∈ paths, q.sameAs p := by
  induction paths using List.reverseRecOn with
  | nil => rfl
  | append_singleton paths last ih =>
      have hsplit (l : List Path) : (∃ q ∈ l ++ [last], q.sameAs p) ↔
          (∃ q ∈ l, q.sameAs p) ∨ last.sameAs p := by
        simp only [List.mem_append, List.mem_singleton, or_and_right, exists_or, exists_eq_left]
      rw [withoutRepeats_append_singleton, hsplit, ← ih]
      split
      · -- the last path is the same as one before, so it adds nothing
        rename_i hrepeat
        refine (or_iff_left_of_imp fun hlast => ih.mpr ?_).symm
        obtain ⟨q, hq, hsame⟩ := List.any_eq_true.mp hrepeat
        rw [Path.sameAs_iff] at hsame hlast
        exact ⟨q, hq, Path.sameAs_iff.mpr (hsame.symm.trans hlast)⟩
      · exact hsplit _

/-! ### Finds below several roots -/

/-- Names lead from a root, which is a directory, to a file with the extension. -/
def FileBelow (extension : String) (tree : FileTree) (root : Path) (names : List String) : Prop :=
  ∃ entries, tree.find root = .ok (.directory entries) ∧
    LeadsToFile extension (.directory entries) names

/-- A find: the index of a root in a list of roots, the root, and the names that lead from it to a
file. -/
structure Find where
  index : Nat
  root : Path
  names : List String

namespace Find

/-- The path of a find: that of the names, as seen from the root. -/
def path (f : Find) : Path := f.root.join ⟨Path.joinSegments f.names⟩

/-- One find comes before another: its root does, or under the same root its names do, compared
name by name in the order of their bytes. -/
def Before (f g : Find) : Prop :=
  f.index < g.index ∨ f.index = g.index ∧ f.names.map bytes < g.names.map bytes

def IsIn (extension : String) (tree : FileTree) (roots : List Path) (f : Find) : Prop :=
  roots[f.index]? = some f.root ∧ FileBelow extension tree f.root f.names

/-- One of some finds is the first with its path: it comes before every other one. -/
def IsFirst (f : Find) (In : Find → Prop) : Prop :=
  In f ∧ ∀ g, In g → g.path.sameAs f.path → f = g ∨ f.Before g

end Find

/-- Names in their order are in the order of their bytes. -/
theorem map_bytes_lt {names names' : List String} (h : names < names') :
    names.map bytes < names'.map bytes := by
  induction names generalizing names' with
  | nil =>
      cases names' with
      | nil => exact absurd h (List.lt_irrefl _)
      | cons name' names' => exact List.nil_lt_cons _ _
  | cons name names ih =>
      cases names' with
      | nil => exact absurd h (List.not_lt_nil _)
      | cons name' names' =>
          rcases List.cons_lt_cons_iff.mp h with hlt | ⟨rfl, hrest⟩
          · exact List.cons_lt_cons_iff.mpr (.inl (bytes_lt_iff.mpr hlt))
          · exact List.cons_lt_cons_iff.mpr (.inr ⟨rfl, ih hrest⟩)

theorem Find.Before.asymm {f g : Find} (h : f.Before g) : ¬ g.Before f := by
  rintro (h' | ⟨h', hlt'⟩)
  · rcases h with h | ⟨h, -⟩ <;> omega
  · rcases h with h | ⟨-, hlt⟩
    · omega
    · exact List.lt_asymm hlt hlt'

theorem Find.Before.irrefl (f : Find) : ¬ f.Before f := fun h => h.asymm h

/-- Behind finds in order comes a find that is the first with its path if none of them has it. -/
theorem Find.isFirst_append_singleton {finds : List Find} {last f : Find}
    (h : ∀ f ∈ finds, f.Before last) :
    f.IsFirst (· ∈ finds ++ [last]) ↔
      f.IsFirst (· ∈ finds) ∨ f = last ∧ ∀ g ∈ finds, ¬ g.path.sameAs last.path := by
  unfold IsFirst
  constructor
  · rintro ⟨hf, hfirst⟩
    rcases List.mem_append.mp hf with hf | hf
    · exact .inl ⟨hf, fun g hg => hfirst g (List.mem_append_left _ hg)⟩
    · obtain rfl : f = last := List.mem_singleton.mp hf
      refine .inr ⟨rfl, fun g hg hsame => ?_⟩
      have hbefore : g.Before f := h g hg
      rcases hfirst g (List.mem_append_left _ hg) hsame with rfl | hlt
      · exact hbefore.irrefl
      · exact hbefore.asymm hlt
  · rintro (⟨hf, hfirst⟩ | ⟨rfl, hunlike⟩)
    · refine ⟨List.mem_append_left _ hf, fun g hg hsame => ?_⟩
      rcases List.mem_append.mp hg with hg | hg
      · exact hfirst g hg hsame
      · exact .inr (List.mem_singleton.mp hg ▸ h f hf)
    · refine ⟨List.mem_append_right _ List.mem_cons_self, fun g hg hsame => ?_⟩
      rcases List.mem_append.mp hg with hg | hg
      · exact absurd hsame (hunlike g hg)
      · exact .inl (List.mem_singleton.mp hg).symm

/-- Of finds in order, a list without repeats keeps the first one with each path. -/
theorem exists_withoutRepeats_eq {finds : List Find} (h : finds.Pairwise Find.Before) :
    ∃ kept : List Find, withoutRepeats (finds.map Find.path) = kept.map Find.path ∧
      kept.Pairwise Find.Before ∧ ∀ f, f ∈ kept ↔ f.IsFirst (· ∈ finds) := by
  induction finds using List.reverseRecOn with
  | nil => exact ⟨[], rfl, List.Pairwise.nil, by simp [Find.IsFirst]⟩
  | append_singleton finds last ih =>
      obtain ⟨hfinds, -, hlast⟩ := List.pairwise_append.mp h
      have hlast : ∀ f ∈ finds, f.Before last := fun f hf => hlast f hf last List.mem_cons_self
      obtain ⟨kept, hkept, hpairwise, hmem⟩ := ih hfinds
      have hrepeat : (finds.map Find.path).any last.path.sameAs = true ↔
          ∃ g ∈ finds, g.path.sameAs last.path := by
        simp only [List.any_map, List.any_eq_true, Function.comp_apply,
          Path.sameAs_comm last.path]
      rw [List.map_append, List.map_singleton, withoutRepeats_append_singleton]
      split
      · next hany =>
          obtain ⟨g, hg, hsame⟩ := hrepeat.mp hany
          refine ⟨kept, hkept, hpairwise, fun f => ?_⟩
          rw [hmem, Find.isFirst_append_singleton hlast]
          exact (or_iff_left fun hnew => hnew.2 g hg hsame).symm
      · next hany =>
          have hunlike : ∀ g ∈ finds, ¬ g.path.sameAs last.path :=
            fun g hg hsame => hany (hrepeat.mpr ⟨g, hg, hsame⟩)
          refine ⟨kept ++ [last], by rw [hkept, List.map_append, List.map_singleton], ?_,
            fun f => ?_⟩
          · refine List.pairwise_append.mpr ⟨hpairwise, List.pairwise_singleton _ _, ?_⟩
            intro f hf g hg
            rw [List.mem_singleton.mp hg]
            exact hlast f ((hmem f).mp hf).1
          · rw [List.mem_append, List.mem_singleton, hmem, Find.isFirst_append_singleton hlast]
            exact or_congr_right (and_iff_left hunlike).symm

section

variable {extension : String} {tree : FileTree} {roots : List Path} {root : Path}

theorem text_ne_empty_of_find {node : FileNode} (h : tree.find root = .ok node) :
    root.text ≠ "" := by
  intro hempty
  obtain ⟨names, hresolve, -⟩ := FileTree.find_eq_ok_iff.mp h
  rw [FileTree.resolve, hempty] at hresolve
  cases hresolve

theorem isName_of_get? {n m : FileNode} (h : n.WellNamed) {names : List String}
    (hget : n.get? names = some m) : ∀ name ∈ names, Path.IsName name := by
  induction names generalizing n with
  | nil => exact fun name hname => nomatch hname
  | cons first names ih =>
      cases n with
      | file content => cases hget
      | directory entries =>
          obtain ⟨next, hnext, hrest⟩ := Option.bind_eq_some_iff.mp hget
          have hmem := FileNode.of_allWellNamed h.2 ((FileNode.lookup_eq_some_iff h.1).mp hnext)
          intro name hname
          rcases List.mem_cons.mp hname with rfl | hname
          · exact hmem.1
          · exact ih hmem.2 hrest name hname

theorem names_of_fileBelow (h : tree.WellNamed) {names : List String}
    (hbelow : FileBelow extension tree root names) :
    root.text ≠ "" ∧ names ≠ [] ∧ ∀ name ∈ names, Path.IsName name := by
  obtain ⟨entries, hfind, ⟨content, hcontent⟩, name, hname, -⟩ := hbelow
  obtain ⟨place, -, hplace⟩ := FileTree.find_eq_ok_iff.mp hfind
  refine ⟨text_ne_empty_of_find hfind, ?_, isName_of_get? (h.get? hplace) hcontent⟩
  rintro rfl
  cases hname

theorem joinNames_of_fileBelow (h : tree.WellNamed) {names : List String}
    (hbelow : FileBelow extension tree root names) :
    root.joinNames names = root.join ⟨Path.joinSegments names⟩ := by
  obtain ⟨hroot, hne, hnames⟩ := names_of_fileBelow h hbelow
  exact Path.joinNames_eq_join hroot hne hnames

theorem components_of_fileBelow (h : tree.WellNamed) {names : List String}
    (hbelow : FileBelow extension tree root names) :
    (root.join ⟨Path.joinSegments names⟩).components = root.components ++ names.map .normal := by
  obtain ⟨hroot, -, hnames⟩ := names_of_fileBelow h hbelow
  rw [← joinNames_of_fileBelow h hbelow, Path.components_joinNames hroot hnames]

theorem exists_filesOfRoot_eq (h : tree.WellNamed) (root : Path) :
    ∃ found : List (List String),
      filesOfRoot extension tree root =
          found.map (fun names => root.join ⟨Path.joinSegments names⟩) ∧
        found.Pairwise (· < ·) ∧ ∀ names, names ∈ found ↔ FileBelow extension tree root names := by
  unfold filesOfRoot
  cases hfind : tree.find root with
  | error e =>
      refine ⟨[], rfl, List.Pairwise.nil, fun names => ⟨by simp, ?_⟩⟩
      rintro ⟨entries, hentries, -⟩
      rw [hfind] at hentries
      cases hentries
  | ok node =>
      obtain ⟨place, -, hplace⟩ := FileTree.find_eq_ok_iff.mp hfind
      obtain ⟨found, hfound, hpairwise, hleads⟩ :=
        @exists_filesBelow_eq extension node root (h.get? hplace)
      have hbelow : ∀ names, names ∈ found ↔ FileBelow extension tree root names := by
        intro names
        rw [hleads]
        unfold FileBelow
        rw [hfind]
        cases node with
        | directory entries => simp
        | file content =>
            simp only [Except.ok.injEq, reduceCtorEq, false_and, exists_false, iff_false]
            rw [← hleads]
            have hnone : found = [] := List.map_eq_nil_iff.mp hfound.symm
            simp [hnone]
      refine ⟨found, ?_, hpairwise, hbelow⟩
      show filesBelow extension root node = _
      rw [hfound]
      exact List.map_congr_left fun names hnames =>
        joinNames_of_fileBelow h ((hbelow names).mp hnames)

theorem exists_finds (h : tree.WellNamed) (roots : List Path) :
    ∃ finds : List Find,
      roots.flatMap (filesOfRoot extension tree) = finds.map Find.path ∧
        finds.Pairwise Find.Before ∧ ∀ f, f ∈ finds ↔ f.IsIn extension tree roots := by
  induction roots using List.reverseRecOn with
  | nil =>
      refine ⟨[], rfl, List.Pairwise.nil, fun f => ⟨by simp, ?_⟩⟩
      rintro ⟨hroot, -⟩
      cases hroot
  | append_singleton roots root ih =>
      obtain ⟨finds, hfinds, hbefore, hmem⟩ := ih
      obtain ⟨found, hfound, hsorted, hbelow⟩ :=
        @exists_filesOfRoot_eq extension tree h root
      refine ⟨finds ++ found.map (⟨roots.length, root, ·⟩), ?_, ?_, fun f => ?_⟩
      · rw [List.flatMap_append, hfinds, List.flatMap_singleton, hfound, List.map_append,
          List.map_map]
        rfl
      · refine List.pairwise_append.mpr ⟨hbefore, ?_, ?_⟩
        · exact List.pairwise_map.mpr (hsorted.imp fun hlt => .inr ⟨rfl, map_bytes_lt hlt⟩)
        · intro f hf g hg
          obtain ⟨names, -, rfl⟩ := List.mem_map.mp hg
          obtain ⟨hlt, -⟩ := List.getElem?_eq_some_iff.mp ((hmem f).mp hf).1
          exact .inl hlt
      · rw [List.mem_append, hmem, List.mem_map]
        unfold Find.IsIn
        constructor
        · rintro (⟨hroot, hfile⟩ | ⟨names, hnames, rfl⟩)
          · obtain ⟨hlt, -⟩ := List.getElem?_eq_some_iff.mp hroot
            exact ⟨by rw [List.getElem?_append_left hlt, hroot], hfile⟩
          · exact ⟨List.getElem?_concat_length, (hbelow names).mp hnames⟩
        · rintro ⟨hroot, hfile⟩
          obtain ⟨index, froot, names⟩ := f
          rcases Nat.lt_trichotomy index roots.length with hlt | rfl | hgt
          · exact .inl ⟨by rw [← List.getElem?_append_left hlt, hroot], hfile⟩
          · have : root = froot := by simpa using hroot
            subst this
            exact .inr ⟨names, (hbelow names).mpr hfile, rfl⟩
          · obtain ⟨hlt, -⟩ := List.getElem?_eq_some_iff.mp hroot
            simp only [List.length_append, List.length_singleton] at hlt
            omega

/-! ### The order of listing -/

theorem fileBelow_iff {names : List String} :
    FileBelow extension tree root names ↔
      ∃ place, tree.resolve root = .ok place ∧
        (tree.root.get? place).map FileNode.isDirectory = some true ∧
        (tree.root.get? (place ++ names)).map FileNode.isDirectory = some false ∧
        ∃ name, names.getLast? = some name ∧ hasExtension extension name = true := by
  constructor
  · rintro ⟨entries, hfind, ⟨content, hcontent⟩, hlast⟩
    obtain ⟨place, hresolve, hplace⟩ := FileTree.find_eq_ok_iff.mp hfind
    refine ⟨place, hresolve, by rw [hplace]; rfl, ?_, hlast⟩
    rw [FileNode.get?_append, hplace, Option.bind_some, hcontent]
    rfl
  · rintro ⟨place, hresolve, hdirectory, hfile, hlast⟩
    obtain ⟨node, hplace, hnode⟩ := Option.map_eq_some_iff.mp hdirectory
    rw [FileNode.get?_append, hplace, Option.bind_some] at hfile
    obtain ⟨inner, hinner, hkind⟩ := Option.map_eq_some_iff.mp hfile
    cases node with
    | file content => cases hnode
    | directory entries =>
        cases inner with
        | file content =>
            exact ⟨entries, FileTree.find_eq_ok_iff.mpr ⟨place, hresolve, hplace⟩,
              ⟨content, hinner⟩, hlast⟩
        | directory inner => cases hkind

/-- The order in which directories list their entries has no part in where names lead. -/
theorem fileBelow_congr {tree' : FileTree} (hroot : tree.root.SameShape tree'.root)
    (hhere : tree'.here = tree.here) {names : List String} :
    FileBelow extension tree root names ↔ FileBelow extension tree' root names := by
  rw [fileBelow_iff, fileBelow_iff, FileTree.resolve_congr hroot hhere]
  simp only [hroot _]

theorem findFiles_congr {tree' : FileTree} (h : tree.WellNamed)
    (hroot : tree.root.Relisted tree'.root) (hhere : tree'.here = tree.here) :
    findFiles extension tree' roots = findFiles extension tree roots := by
  have h' : tree'.WellNamed := hroot.wellNamed h
  obtain ⟨finds, hfinds, hbefore, hmem⟩ := @exists_finds extension tree h roots
  obtain ⟨finds', hfinds', hbefore', hmem'⟩ := @exists_finds extension tree' h' roots
  have : Std.Antisymm Find.Before := ⟨fun f g hlt hgt => absurd hgt hlt.asymm⟩
  have : Std.Irrefl Find.Before := ⟨Find.Before.irrefl⟩
  have heq : finds' = finds := by
    refine hbefore'.eq_of_mem_iff hbefore fun f => ?_
    rw [hmem, hmem']
    exact and_congr_right fun _ => (fileBelow_congr (hroot.sameShape h) hhere).symm
  rw [findFiles, findFiles, hfinds, hfinds', heq]

/-! ### All roots -/

/-- A file is found if names lead to it from one of the roots. -/
theorem exists_mem_findFiles_iff (h : tree.WellNamed) {p : Path} :
    (∃ q ∈ findFiles extension tree roots, q.sameAs p) ↔
      ∃ root ∈ roots, ∃ names, FileBelow extension tree root names ∧
        p.components = root.components ++ names.map .normal := by
  obtain ⟨finds, hfinds, -, hmem⟩ := @exists_finds extension tree h roots
  rw [findFiles, exists_mem_withoutRepeats_iff, hfinds]
  constructor
  · rintro ⟨q, hq, hsame⟩
    obtain ⟨f, hf, rfl⟩ := List.mem_map.mp hq
    obtain ⟨hroot, hbelow⟩ := (hmem f).mp hf
    refine ⟨f.root, List.mem_of_getElem? hroot, f.names, hbelow, ?_⟩
    rw [← Path.sameAs_iff.mp hsame]
    exact components_of_fileBelow h hbelow
  · rintro ⟨root, hroot, names, hbelow, hcomponents⟩
    obtain ⟨index, hindex⟩ := List.mem_iff_getElem?.mp hroot
    refine ⟨_, List.mem_map_of_mem ((hmem ⟨index, root, names⟩).mpr ⟨hindex, hbelow⟩), ?_⟩
    rw [Path.sameAs_iff, hcomponents]
    exact components_of_fileBelow h hbelow

/-- The files that a project is asked for are those below its source and its resource roots, and
with those of its tests also those below the roots of the tests. -/
theorem exists_mem_discover_iff (h : tree.WellNamed) (layout : Layout) (includeTest : Bool)
    (p : Path) :
    ((∃ q ∈ (discover tree layout includeTest).java, q.sameAs p) ↔
      ∃ root, (root ∈ layout.source ∨ includeTest = true ∧ root ∈ layout.testSource) ∧
        ∃ names, FileBelow "java" tree root names ∧
          p.components = root.components ++ names.map .normal) ∧
    ((∃ q ∈ (discover tree layout includeTest).xml, q.sameAs p) ↔
      ∃ root, (root ∈ layout.resource ∨ includeTest = true ∧ root ∈ layout.testResource) ∧
        ∃ names, FileBelow "xml" tree root names ∧
          p.components = root.components ++ names.map .normal) := by
  have hroots (usual tests : List Path) (root : Path) :
      root ∈ (if includeTest then usual ++ tests else usual) ↔
        root ∈ usual ∨ includeTest = true ∧ root ∈ tests := by
    cases includeTest <;> simp
  unfold discover
  simp only [exists_mem_findFiles_iff h, hroots, and_self]

/-- Every file of a project lies below one of the roots that its filter tries. -/
theorem exists_declaredRoot_of_mem_discover (h : tree.WellNamed) {layout : Layout}
    {includeTest : Bool} {p : Path}
    (hp : p ∈ (discover tree layout includeTest).java ∨
      p ∈ (discover tree layout includeTest).xml) :
    ∃ root ∈ layout.declaredRoots, root.components <+: p.components := by
  obtain ⟨hjava, hxml⟩ := exists_mem_discover_iff h layout includeTest p
  have hsame : p.sameAs p = true := Path.sameAs_iff.mpr rfl
  unfold Layout.declaredRoots
  simp only [List.mem_append]
  rcases hp with hp | hp
  · obtain ⟨root, hroot, names, -, hcomponents⟩ := hjava.mp ⟨p, hp, hsame⟩
    exact ⟨root, by tauto, names.map .normal, hcomponents.symm⟩
  · obtain ⟨root, hroot, names, -, hcomponents⟩ := hxml.mp ⟨p, hp, hsame⟩
    exact ⟨root, by tauto, names.map .normal, hcomponents.symm⟩

/-- With the files of its tests, a project has the files that it has without, and more behind. -/
theorem discover_prefix (layout : Layout) :
    (discover tree layout false).java <+: (discover tree layout true).java ∧
      (discover tree layout false).xml <+: (discover tree layout true).xml := by
  have hmore (extension : String) (roots more : List Path) : findFiles extension tree roots <+:
      findFiles extension tree (roots ++ more) := by
    rw [findFiles, findFiles, List.flatMap_append]
    exact withoutRepeats_prefix _ _
  exact ⟨hmore _ _ _, hmore _ _ _⟩

/-- The files below some roots.  A path is listed, as it is or as a path that means the same, if
names lead from one of the roots to a file with the extension and the path is the root's with the
names behind it.  No two listed paths mean the same.  They come in the order of the first roots they
are found under, and below one root in the order of the names that lead to them.  A tree that is
listed in another order has the same list, and a project has more files behind the others with those
of its tests. -/
theorem findFiles_of_roots (h : tree.WellNamed) (extension : String) (roots : List Path) :
    (∀ p : Path, (∃ q ∈ findFiles extension tree roots, q.sameAs p) ↔
      ∃ root ∈ roots, ∃ names, FileBelow extension tree root names ∧
        p.components = root.components ++ names.map .normal) ∧
    (findFiles extension tree roots).Pairwise (fun p q => ¬ p.sameAs q) ∧
    (∃ finds : List Find, findFiles extension tree roots = finds.map Find.path ∧
      finds.Pairwise Find.Before ∧
      ∀ f, f ∈ finds ↔ f.IsFirst (Find.IsIn extension tree roots)) ∧
    (∀ tree' : FileTree, tree'.here = tree.here → tree.root.Relisted tree'.root →
      findFiles extension tree' roots = findFiles extension tree roots) ∧
    ∀ layout : Layout,
      (discover tree layout false).java <+: (discover tree layout true).java ∧
        (discover tree layout false).xml <+: (discover tree layout true).xml := by
  obtain ⟨finds, hfinds, hbefore, hmem⟩ := @exists_finds extension tree h roots
  obtain ⟨kept, hkept, hsorted, hfirst⟩ := exists_withoutRepeats_eq hbefore
  have hfiles : findFiles extension tree roots = kept.map Find.path := by
    rw [findFiles, hfinds, hkept]
  have hfirst : ∀ f, f ∈ kept ↔ f.IsFirst (Find.IsIn extension tree roots) := by
    intro f
    rw [hfirst, funext fun g => propext (hmem g)]
  refine ⟨fun p => exists_mem_findFiles_iff h, ?_, ⟨kept, hfiles, hsorted, hfirst⟩,
    fun tree' hhere hroot => findFiles_congr h hroot hhere, discover_prefix⟩
  -- of two finds with the same path, the later one is not the first
  rw [hfiles, List.pairwise_map]
  refine hsorted.imp_of_mem fun {f g} hf hg hlt hsame => ?_
  rcases ((hfirst g).mp hg).2 f ((hfirst f).mp hf).1 hsame with rfl | hgt
  · exact hlt.irrefl
  · exact hlt.asymm hgt

end

/-- Sources in a directory that lies in another one, next to a directory named like a file. -/
def nestedSources : FileTree :=
  ⟨.directory [("src", .directory
    [("b.java", .directory [("Y.java", .file .empty)]),
      ("a", .directory [("X.java", .file .empty), ("notes.txt", .file .empty)])])], []⟩

/-- The file in the directory that is named like a file is found. -/
theorem findFiles_nestedSources :
    nestedSources.WellNamed ∧
      ∃ q ∈ findFiles "java" nestedSources [⟨"src/a"⟩, ⟨"src"⟩],
        q.sameAs ⟨"src//b.java/Y.java"⟩ := by
  have hnamed : nestedSources.WellNamed := by
    simp only [FileTree.WellNamed, nestedSources, FileNode.WellNamed, FileNode.AllWellNamed]
    decide
  have hbelow : FileBelow "java" nestedSources ⟨"src"⟩ ["b.java", "Y.java"] :=
    ⟨_, FileTree.find_eq_ok_iff.mpr
      ⟨["src"], (by decide +kernel : nestedSources.resolve ⟨"src"⟩ = .ok ["src"]), rfl⟩,
      ⟨_, rfl⟩, _, rfl, by decide +kernel⟩
  exact ⟨hnamed, ((findFiles_of_roots hnamed "java" _).1 _).mpr
    ⟨⟨"src"⟩, by simp, _, hbelow, by decide +kernel⟩⟩

end RouteCoverage
