import Mathlib.Data.List.Sort
import RouteCoverage.DumpDirectory
import RouteCoverage.Proofs.Files.Lookup
import RouteCoverage.Proofs.FirstFailure
import RouteCoverage.Proofs.Trace.Agreement

/-!
# Loading a trace from a directory of dumps

The trace of a route comes from the dump files of a directory alone, in the order of their names
(`load_eq`).  The first one that cannot be read as text, or whose content is at fault, decides; if
there is none and the runs agree on the names of their steps, then neither the names of the files
nor the order and the grouping in which they are merged matter (`load_of_dumpFiles`).
-/

namespace RouteCoverage.DumpDirectory

/-- A dump file: its name in the directory, and what it holds. -/
structure DumpFile where
  name : String
  content : ByteArray

/-- The trace of a route that a content holds, or why there is none. -/
def traceOfContent (routeId : String) (content : ByteArray) : Except TraceError.Cause Trace :=
  match String.fromUTF8? content with
  | none => .error (.unreadable .notText)
  | some text => (Dump.records routeId text).mapError .fault

/-- The trace of a route that a dump file holds; a failure names the path of the file. -/
def DumpFile.trace (dir : Path) (routeId : String) (d : DumpFile) : Except TraceError Trace :=
  (traceOfContent routeId d.content).mapError (⟨(dir.join ⟨d.name⟩).text, ·⟩)

/-- An entry of a directory is a dump file if it is a file and its name has the extension. -/
def dumpFile? : String × FileNode → Option DumpFile
  | (name, .file content) =>
      if (⟨name⟩ : Path).extension? = some "xml" then some ⟨name, content⟩ else none
  | (_, .directory _) => none

/-- The dump files of a directory in the order of their names; a missing directory has none. -/
def dumpFiles (tree : FileTree) (dir : Path) : List DumpFile :=
  ((tree.directory? dir).getD []).filterMap dumpFile?

section

variable {tree : FileTree} {dir : Path} {routeId : String}

/-- What a directory lists is in the order of the names. -/
theorem pairwise_directory? (h : tree.WellNamed) (dir : Path) :
    ((tree.directory? dir).getD []).Pairwise fun a b => a.1 < b.1 := by
  unfold FileTree.directory?
  split
  · next entries hfind =>
      obtain ⟨names, -, hget⟩ := FileTree.find_eq_ok_iff.mp hfind
      exact FileNode.pairwise_mergeSort (h.get? hget).1
  · exact List.Pairwise.nil

theorem find_of_mem_directory? (h : tree.WellNamed) {name : String} {node : FileNode}
    (hmem : (name, node) ∈ (tree.directory? dir).getD []) :
    dir.text ≠ "" ∧ Path.IsName name ∧ tree.find (dir.join ⟨name⟩) = .ok node := by
  unfold FileTree.directory? at hmem
  split at hmem
  · next entries hfind =>
      rw [Option.getD_some, List.mem_mergeSort] at hmem
      obtain ⟨names, hresolve, hget⟩ := FileTree.find_eq_ok_iff.mp hfind
      have hnamed := h.get? hget
      have hname := (FileNode.of_allWellNamed hnamed.2 hmem).1
      refine ⟨?_, hname, FileTree.find_join hfind hname
        ((FileNode.lookup_eq_some_iff hnamed.1).mpr hmem)⟩
      rintro hempty
      rw [FileTree.resolve, hempty] at hresolve
      cases hresolve
  · cases hmem

theorem pairwise_dumpFiles (h : tree.WellNamed) (dir : Path) :
    (dumpFiles tree dir).Pairwise (·.name < ·.name) := by
  refine (pairwise_directory? h dir).filterMap dumpFile? ?_
  have hname : ∀ (e : String × FileNode) (d : DumpFile), dumpFile? e = some d → d.name = e.1 := by
    intro e d hd
    unfold dumpFile? at hd
    split at hd
    · split at hd
      · cases hd
        rfl
      · cases hd
    · cases hd
  intro e e' hlt d hd d' hd'
  rw [hname e d hd, hname e' d' hd']
  exact hlt

theorem trace_of_find {name : String} {content : ByteArray}
    (h : tree.find (dir.join ⟨name⟩) = .ok (.file content)) :
    trace tree routeId (dir.join ⟨name⟩) = DumpFile.trace dir routeId ⟨name, content⟩ := by
  unfold trace DumpFile.trace traceOfContent
  rw [FileTree.readText_of_find h]
  cases String.fromUTF8? content with
  | none => rfl
  | some text =>
      dsimp only
      cases Dump.records routeId text <;> rfl

theorem map_trace_files (h : tree.WellNamed) :
    (files tree dir).map (trace tree routeId) =
      (dumpFiles tree dir).map (DumpFile.trace dir routeId) := by
  unfold files dumpFiles
  rw [List.map_filterMap, List.map_filterMap]
  refine List.filterMap_congr fun (name, node) hmem => ?_
  obtain ⟨hdir, hname, hfind⟩ := find_of_mem_directory? h hmem
  cases node with
  | directory entries => rfl
  | file content =>
      simp only [dumpFile?, Path.extension?_join hdir hname]
      split
      · exact congrArg some (trace_of_find hfind)
      · rfl

theorem load_eq (h : tree.WellNamed) :
    load tree dir routeId =
      ((dumpFiles tree dir).mapM (DumpFile.trace dir routeId)).map Trace.mergeAll := by
  have hmapM {α : Type} (f : α → Except TraceError Trace) (l : List α) :
      l.mapM f = (l.map f).mapM id := by
    rw [List.mapM_map]
    rfl
  unfold load
  rw [hmapM, map_trace_files h, ← hmapM]
  cases (dumpFiles tree dir).mapM (DumpFile.trace dir routeId) <;> rfl

/-- Directories with the same dump files have them in the same order. -/
theorem dumpFiles_eq_of_mem_iff {tree' : FileTree} (h : tree.WellNamed) (h' : tree'.WellNamed)
    (hmem : ∀ d, d ∈ dumpFiles tree' dir ↔ d ∈ dumpFiles tree dir) :
    dumpFiles tree' dir = dumpFiles tree dir := by
  have : Std.Antisymm fun d d' : DumpFile => d.name < d'.name :=
    ⟨fun d d' hlt hgt => absurd hgt (String.lt_asymm hlt)⟩
  have : Std.Irrefl fun d d' : DumpFile => d.name < d'.name :=
    ⟨fun d => String.lt_irrefl d.name⟩
  exact (pairwise_dumpFiles h' dir).eq_of_mem_iff (pairwise_dumpFiles h dir) hmem

theorem map_trace_eq_map_ok_iff {dumps : List DumpFile} {runs : List Trace} :
    dumps.map (DumpFile.trace dir routeId) = runs.map .ok ↔
      (dumps.map DumpFile.content).map (traceOfContent routeId) = runs.map .ok := by
  have hone (d : DumpFile) (run : Trace) : d.trace dir routeId = .ok run ↔
      traceOfContent routeId d.content = .ok run := by
    unfold DumpFile.trace
    cases traceOfContent routeId d.content <;> simp [Except.mapError]
  induction dumps generalizing runs with
  | nil => cases runs <;> simp
  | cons d dumps ih =>
      cases runs with
      | nil => simp
      | cons run runs =>
          simp only [List.map_cons, List.cons_eq_cons, hone, ih]

/-- The trace of a route when every dump file can be read. -/
theorem load_of_runs (h : tree.WellNamed) {runs : List Trace}
    (hruns : (dumpFiles tree dir).map (DumpFile.trace dir routeId) = runs.map .ok) :
    load tree dir routeId = .ok (Trace.mergeAll runs) := by
  rw [load_eq h, mapM_eq_ok_iff.mpr hruns]
  rfl

theorem load_eq_error_iff (h : tree.WellNamed) {e : TraceError} :
    load tree dir routeId = .error e ↔
      ∃ before d after, dumpFiles tree dir = before ++ d :: after ∧
        (∀ b ∈ before, ∃ run, b.trace dir routeId = .ok run) ∧ d.trace dir routeId = .error e := by
  rw [load_eq h, ← mapM_eq_error_iff]
  cases (dumpFiles tree dir).mapM (DumpFile.trace dir routeId) <;> simp [Except.map]

theorem exists_load_eq_error_iff (h : tree.WellNamed) :
    (∃ e, load tree dir routeId = .error e) ↔
      ∃ d ∈ dumpFiles tree dir, ∃ e, d.trace dir routeId = .error e := by
  constructor
  · rintro ⟨e, he⟩
    obtain ⟨before, d, after, hfiles, -, hd⟩ := (load_eq_error_iff h).mp he
    rw [hfiles]
    exact ⟨d, List.mem_append_cons_self, e, hd⟩
  · rintro ⟨d, hmem, e, hd⟩
    cases hload : (dumpFiles tree dir).mapM (DumpFile.trace dir routeId) with
    | error e' => exact ⟨e', by rw [load_eq h, hload]; rfl⟩
    | ok runs =>
        obtain ⟨run, -, hrun⟩ := exists_answer (mapM_eq_ok_iff.mp hload) hmem
        rw [hd] at hrun
        cases hrun

theorem load_eq_nil_iff (h : tree.WellNamed) :
    load tree dir routeId = .ok [] ↔ ∀ d ∈ dumpFiles tree dir, d.trace dir routeId = .ok [] := by
  constructor
  · intro hload d hmem
    rw [load_eq h] at hload
    cases hruns : (dumpFiles tree dir).mapM (DumpFile.trace dir routeId) with
    | error e =>
        rw [hruns] at hload
        cases hload
    | ok runs =>
        rw [hruns] at hload
        obtain ⟨run, hrun, hd⟩ := exists_answer (mapM_eq_ok_iff.mp hruns) hmem
        rw [hd, Trace.mergeAll_eq_nil_iff.mp (Except.ok.inj hload) run hrun]
  · intro hall
    obtain ⟨runs, hruns⟩ := exists_mapM_eq_ok fun d hd => ⟨[], hall d hd⟩
    rw [load_of_runs h (mapM_eq_ok_iff.mp hruns)]
    refine congrArg Except.ok (Trace.mergeAll_eq_nil_iff.mpr fun run hrun => ?_)
    obtain ⟨d, hd, hrun⟩ := exists_asked (mapM_eq_ok_iff.mp hruns) hrun
    rw [hall d hd] at hrun
    exact (Except.ok.inj hrun).symm

/-- Renamed files hold the same runs in another order. -/
theorem load_eq_of_perm_contents {tree' : FileTree} (h : tree.WellNamed) (h' : tree'.WellNamed)
    {runs : List Trace}
    (hruns : (dumpFiles tree dir).map (DumpFile.trace dir routeId) = runs.map .ok)
    (hagree : Trace.AllAgree runs)
    (hperm : ((dumpFiles tree' dir).map DumpFile.content).Perm
      ((dumpFiles tree dir).map DumpFile.content)) :
    load tree' dir routeId = load tree dir routeId := by
  have hcontents := hperm.map (traceOfContent routeId)
  rw [map_trace_eq_map_ok_iff.mp hruns] at hcontents
  obtain ⟨runs', hruns', hperm'⟩ := exists_perm_of_perm_map_ok hcontents
  rw [load_of_runs h hruns, load_of_runs h' (map_trace_eq_map_ok_iff.mpr hruns'),
    Trace.mergeAll_perm hperm' (hagree.perm hperm'.symm)]

theorem exists_load_eq_merge (h : tree.WellNamed) {runs : List Trace}
    (hruns : (dumpFiles tree dir).map (DumpFile.trace dir routeId) = runs.map .ok)
    (hagree : Trace.AllAgree runs) {first second : List DumpFile}
    (hperm : (first ++ second).Perm (dumpFiles tree dir)) :
    ∃ firsts seconds, first.map (DumpFile.trace dir routeId) = firsts.map .ok ∧
      second.map (DumpFile.trace dir routeId) = seconds.map .ok ∧
      load tree dir routeId =
        .ok (Trace.merge (Trace.mergeAll firsts) (Trace.mergeAll seconds)) := by
  have hanswers := hperm.map (DumpFile.trace dir routeId)
  rw [hruns] at hanswers
  obtain ⟨runs', hruns', hperm'⟩ := exists_perm_of_perm_map_ok hanswers
  rw [List.map_append, eq_comm, List.map_eq_append_iff] at hruns'
  obtain ⟨firsts, seconds, rfl, hfirsts, hseconds⟩ := hruns'
  refine ⟨firsts, seconds, hfirsts.symm, hseconds.symm, ?_⟩
  rw [load_of_runs h hruns, Trace.merge_mergeAll (hagree.perm hperm'.symm),
    Trace.mergeAll_perm hperm'.symm hagree]

end

/-- Loading the trace of a route from a directory.  Only its dump files count, in the order of
their names: with the same dump files the answer is the same.  It is a failure exactly if one of
them has no trace to give, and then it is the failure of the first such file.  It is the empty
trace exactly if each of them gives the empty trace.  When each gives a trace and any two of these
agree, the answer is the trace merged from them; it stays the same after any renaming of the dump
files, and when the traces of two groups of them are merged first. -/
theorem load_of_dumpFiles {tree : FileTree} (h : tree.WellNamed) (dir : Path) (routeId : String) :
    (dumpFiles tree dir).Pairwise (·.name < ·.name) ∧
    (∀ tree' : FileTree, tree'.WellNamed →
      (∀ d, d ∈ dumpFiles tree' dir ↔ d ∈ dumpFiles tree dir) →
      load tree' dir routeId = load tree dir routeId) ∧
    ((∃ e, load tree dir routeId = .error e) ↔
      ∃ d ∈ dumpFiles tree dir, ∃ e, d.trace dir routeId = .error e) ∧
    (∀ e, load tree dir routeId = .error e ↔
      ∃ before d after, dumpFiles tree dir = before ++ d :: after ∧
        (∀ b ∈ before, ∃ run, b.trace dir routeId = .ok run) ∧ d.trace dir routeId = .error e) ∧
    (load tree dir routeId = .ok [] ↔
      ∀ d ∈ dumpFiles tree dir, d.trace dir routeId = .ok []) ∧
    ∀ runs, (dumpFiles tree dir).map (DumpFile.trace dir routeId) = runs.map .ok →
      Trace.AllAgree runs →
      load tree dir routeId = .ok (Trace.mergeAll runs) ∧
      (∀ tree' : FileTree, tree'.WellNamed →
        ((dumpFiles tree' dir).map DumpFile.content).Perm
          ((dumpFiles tree dir).map DumpFile.content) →
        load tree' dir routeId = load tree dir routeId) ∧
      ∀ first second : List DumpFile, (first ++ second).Perm (dumpFiles tree dir) →
        ∃ firsts seconds, first.map (DumpFile.trace dir routeId) = firsts.map .ok ∧
          second.map (DumpFile.trace dir routeId) = seconds.map .ok ∧
          load tree dir routeId =
            .ok (Trace.merge (Trace.mergeAll firsts) (Trace.mergeAll seconds)) := by
  refine ⟨pairwise_dumpFiles h dir, fun tree' h' hmem => ?_, exists_load_eq_error_iff h,
    fun e => load_eq_error_iff h, load_eq_nil_iff h, fun runs hruns hagree =>
      ⟨load_of_runs h hruns, fun tree' h' => load_eq_of_perm_contents h h' hruns hagree,
        fun first second => exists_load_eq_merge h hruns hagree⟩⟩
  rw [load_eq h, load_eq h', dumpFiles_eq_of_mem_iff h h' hmem]

/-- A directory with the dumps of two tests, listed out of order, and a file that is no dump. -/
def dumpsOfTwoTests : FileTree :=
  ⟨.directory [("dumps", .directory
    [("second.xml",
        .file "<route id='r' exchangesTotal='1'><to exchangesTotal='1'/></route>".toUTF8),
      ("notes.txt", .file "<route".toUTF8),
      ("first.xml", .file "<route id='r' exchangesTotal='2'/>".toUTF8)])], []⟩

theorem dumpFiles_dumpsOfTwoTests :
    dumpFiles dumpsOfTwoTests ⟨"dumps"⟩ =
      [⟨"first.xml", "<route id='r' exchangesTotal='2'/>".toUTF8⟩,
        ⟨"second.xml",
          "<route id='r' exchangesTotal='1'><to exchangesTotal='1'/></route>".toUTF8⟩] := by
  have hfind := FileTree.find_eq_ok_iff.mpr
    ⟨["dumps"], (by decide +kernel : dumpsOfTwoTests.resolve ⟨"dumps"⟩ = .ok ["dumps"]), rfl⟩
  have hdump : ∀ name ∈ ["first.xml", "second.xml"], Path.extension? ⟨name⟩ = some "xml" := by
    decide +kernel
  have hother : Path.extension? ⟨"notes.txt"⟩ ≠ some "xml" := by decide +kernel
  simp [dumpFiles, FileTree.directory?, hfind, List.mergeSort,
    List.MergeSort.Internal.splitInTwo, dumpFile?, hdump, hother]

/-- The two dumps of the directory are read in the order of their names. -/
theorem load_dumpsOfTwoTests :
    dumpsOfTwoTests.WellNamed ∧
      Trace.AllAgree [[⟨"from", .ofNat 2⟩], [⟨"from", .ofNat 1⟩, ⟨"to", .ofNat 1⟩]] ∧
      load dumpsOfTwoTests ⟨"dumps"⟩ "r" = .ok [⟨"from", .ofNat 3⟩, ⟨"to", .ofNat 1⟩] := by
  have hnamed : dumpsOfTwoTests.WellNamed := by
    simp only [FileTree.WellNamed, dumpsOfTwoTests, FileNode.WellNamed, FileNode.AllWellNamed]
    decide
  have hagree : Trace.AllAgree
      [[⟨"from", .ofNat 2⟩], [⟨"from", .ofNat 1⟩, ⟨"to", .ofNat 1⟩]] := by
    intro t ht u hu i r s hr hs
    simp only [List.mem_cons, List.not_mem_nil, or_false] at ht hu
    rcases ht with rfl | rfl <;> rcases hu with rfl | rfl <;> rcases i with - | _ | i <;>
      simp only [List.getElem?_cons_zero, List.getElem?_cons_succ, List.getElem?_nil,
        Option.some.injEq, reduceCtorEq] at hr hs <;> rw [← hr, ← hs]
  have hruns : (dumpFiles dumpsOfTwoTests ⟨"dumps"⟩).map (DumpFile.trace ⟨"dumps"⟩ "r") =
      [[⟨"from", .ofNat 2⟩], [⟨"from", .ofNat 1⟩, ⟨"to", .ofNat 1⟩]].map .ok := by
    rw [dumpFiles_dumpsOfTwoTests]
    decide +kernel
  exact ⟨hnamed, hagree,
    ((load_of_dumpFiles hnamed ⟨"dumps"⟩ "r").2.2.2.2.2 _ hruns hagree).1⟩

end RouteCoverage.DumpDirectory
