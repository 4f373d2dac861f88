import RouteCoverage.Discovery
import RouteCoverage.Proofs.Files.Lookup
import RouteCoverage.Proofs.Files.Names

/-!
# The files below a directory

Walking through a directory finds the files below it whose names end in the right extension, each
once, in the order of the names that lead to them (`exists_filesBelow_eq`): first by the first name,
then by the second, and so on.  Directories are walked through whatever their own names end in.
-/

namespace RouteCoverage

def LeadsToFile (extension : String) (n : FileNode) (names : List String) : Prop :=
  (∃ content, n.get? names = some (.file content)) ∧
    ∃ name, names.getLast? = some name ∧ hasExtension extension name = true

/-- Names lead from an entry of a directory, whose own name counts as well, to a file with the
extension. -/
def EntryLeadsToFile (extension : String) (e : String × FileNode) (names : List String) : Prop :=
  (∃ content, e.2.get? names = some (.file content)) ∧
    ∃ name, (e.1 :: names).getLast? = some name ∧ hasExtension extension name = true

/-- The files with an extension found under an entry of a directory, which has the path `path`. -/
def filesOfEntry (extension : String) (path : Path) : String × FileNode → List Path
  | (name, .file _) => if hasExtension extension name then [path] else []
  | (_, .directory entries) => filesBelow extension path (.directory entries)

variable {extension : String} {dir : Path}

theorem filesOfEntries_eq (entries : List (String × FileNode)) :
    filesOfEntries extension dir entries =
      entries.map fun e => (e.1, filesOfEntry extension (dir.join ⟨e.1⟩) e) := by
  induction entries with
  | nil => rfl
  | cons e entries ih =>
      obtain ⟨name, node⟩ := e
      rw [List.map_cons, ← ih]
      cases node with
      | file content => rw [filesOfEntries]; rfl
      | directory inner => rw [filesOfEntries]; rfl

/-- A directory is walked through in the order of its names. -/
theorem filesBelow_directory (entries : List (String × FileNode)) :
    filesBelow extension dir (.directory entries) =
      (entries.mergeSort fun a b => a.1 ≤ b.1).flatMap fun e =>
        filesOfEntry extension (dir.join ⟨e.1⟩) e := by
  have hsort : ((entries.mergeSort fun a b => a.1 ≤ b.1).map fun e =>
      (e.1, filesOfEntry extension (dir.join ⟨e.1⟩) e)) =
        (entries.map fun e => (e.1, filesOfEntry extension (dir.join ⟨e.1⟩) e)).mergeSort
          fun a b => a.1 ≤ b.1 :=
    List.map_mergeSort fun _ _ _ _ => rfl
  rw [filesBelow, filesOfEntries_eq, ← hsort, List.flatMap_map]

theorem leadsToFile_directory_iff {entries : List (String × FileNode)}
    (h : (entries.map Prod.fst).Nodup) {names : List String} :
    LeadsToFile extension (.directory entries) names ↔
      ∃ e ∈ entries, ∃ rest, names = e.1 :: rest ∧ EntryLeadsToFile extension e rest := by
  constructor
  · rintro ⟨⟨content, hcontent⟩, hlast⟩
    cases names with
    | nil => cases hcontent
    | cons name rest =>
        obtain ⟨node, hnode, hrest⟩ := Option.bind_eq_some_iff.mp hcontent
        have hmem := (FileNode.lookup_eq_some_iff h).mp hnode
        exact ⟨(name, node), hmem, rest, rfl, ⟨content, hrest⟩, hlast⟩
  · rintro ⟨⟨name, node⟩, hmem, rest, rfl, ⟨content, hcontent⟩, hlast⟩
    refine ⟨⟨content, ?_⟩, hlast⟩
    exact Option.bind_eq_some_iff.mpr
      ⟨node, (FileNode.lookup_eq_some_iff h).mpr hmem, hcontent⟩

/-- Entries in order, each with its files in order, have their files in order. -/
theorem exists_flatMap_eq {entries : List (String × FileNode)}
    {files : String × FileNode → List Path} {Leads : String × FileNode → List String → Prop}
    (hsorted : entries.Pairwise fun a b => a.1 < b.1)
    (h : ∀ e ∈ entries, ∃ found : List (List String),
      files e = found.map (dir.join ⟨e.1⟩).joinNames ∧ found.Pairwise (· < ·) ∧
        ∀ names, names ∈ found ↔ Leads e names) :
    ∃ found : List (List String),
      entries.flatMap files = found.map dir.joinNames ∧ found.Pairwise (· < ·) ∧
        ∀ names, names ∈ found ↔ ∃ e ∈ entries, ∃ rest, names = e.1 :: rest ∧ Leads e rest := by
  induction entries with
  | nil => exact ⟨[], rfl, List.Pairwise.nil, by simp⟩
  | cons e entries ih =>
      obtain ⟨hfirst, hsorted⟩ := List.pairwise_cons.mp hsorted
      obtain ⟨here, hfiles, hhere, hmem⟩ := h e List.mem_cons_self
      obtain ⟨more, hmore, hpairwise, hmem'⟩ :=
        ih hsorted fun e' he' => h e' (List.mem_cons_of_mem e he')
      refine ⟨here.map (e.1 :: ·) ++ more, ?_, ?_, fun names => ?_⟩
      · rw [List.flatMap_cons, hfiles, hmore, List.map_append, List.map_map]
        rfl
      · refine List.pairwise_append.mpr ⟨?_, hpairwise, ?_⟩
        · refine List.pairwise_map.mpr (hhere.imp fun hlt => ?_)
          exact List.cons_lt_cons_iff.mpr (.inr ⟨rfl, hlt⟩)
        · intro names hnames names' hnames'
          obtain ⟨rest, -, rfl⟩ := List.mem_map.mp hnames
          obtain ⟨e', he', rest', rfl, -⟩ := (hmem' names').mp hnames'
          exact List.cons_lt_cons_iff.mpr (.inl (hfirst e' he'))
      · rw [List.mem_append, List.mem_map, hmem']
        constructor
        · rintro (⟨rest, hrest, rfl⟩ | ⟨e', he', rest, rfl, hrest⟩)
          · exact ⟨e, List.mem_cons_self, rest, rfl, (hmem rest).mp hrest⟩
          · exact ⟨e', List.mem_cons_of_mem e he', rest, rfl, hrest⟩
        · rintro ⟨e', he', rest, rfl, hrest⟩
          rcases List.mem_cons.mp he' with rfl | he'
          · exact .inl ⟨rest, (hmem rest).mpr hrest, rfl⟩
          · exact .inr ⟨e', he', rest, rfl, hrest⟩

/-- The files below a directory, by the names that lead to them, in the order of these. -/
theorem exists_filesBelow_eq : ∀ (n : FileNode) (dir : Path), n.WellNamed →
    ∃ found : List (List String),
      filesBelow extension dir n = found.map dir.joinNames ∧ found.Pairwise (· < ·) ∧
        ∀ names, names ∈ found ↔ LeadsToFile extension n names
  | .file content, dir, _ => by
      refine ⟨[], rfl, List.Pairwise.nil, fun names => ⟨by simp, ?_⟩⟩
      rintro ⟨⟨content', hcontent⟩, name, hname, -⟩
      cases names with
      | nil => cases hname
      | cons first names => cases hcontent
  | .directory entries, dir, h => by
      have hentry : ∀ e ∈ entries.mergeSort fun a b => a.1 ≤ b.1, ∃ found : List (List String),
          filesOfEntry extension (dir.join ⟨e.1⟩) e =
              found.map (dir.join ⟨e.1⟩).joinNames ∧ found.Pairwise (· < ·) ∧
            ∀ names, names ∈ found ↔ EntryLeadsToFile extension e names := by
        rintro ⟨name, node⟩ he
        have hmem : (name, node) ∈ entries := List.mem_mergeSort.mp he
        cases node with
        | file content =>
            refine ⟨if hasExtension extension name then [[]] else [], ?_, ?_, fun names => ?_⟩
            · rw [filesOfEntry]
              split <;> rfl
            · split <;> simp
            · cases names with
              | nil => simp [EntryLeadsToFile, FileNode.get?]
              | cons first names =>
                  simp only [EntryLeadsToFile, FileNode.get?, FileNode.entries?]
                  split <;> simp
        | directory inner =>
            have : sizeOf inner < sizeOf entries := by
              have := List.sizeOf_lt_of_mem hmem
              simp only [Prod.mk.sizeOf_spec, FileNode.directory.sizeOf_spec] at this
              omega
            obtain ⟨found, hfound, hpairwise, hleads⟩ := exists_filesBelow_eq (.directory inner)
              (dir.join ⟨name⟩) (FileNode.of_allWellNamed h.2 hmem).2
            refine ⟨found, hfound, hpairwise, fun names => (hleads names).trans ?_⟩
            cases names with
            | nil => simp [LeadsToFile, EntryLeadsToFile, FileNode.get?]
            | cons first names => simp [LeadsToFile, EntryLeadsToFile]
      obtain ⟨found, hfound, hpairwise, hmem⟩ :=
        exists_flatMap_eq (FileNode.pairwise_mergeSort h.1) hentry
      refine ⟨found, by rw [filesBelow_directory, hfound], hpairwise, fun names => ?_⟩
      rw [hmem, leadsToFile_directory_iff h.1]
      simp only [List.mem_mergeSort]
termination_by n => sizeOf n

end RouteCoverage
