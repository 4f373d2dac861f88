import Mathlib.Algebra.BigOperators.Group.List.Basic
import Mathlib.Algebra.GroupWithZero.Nat
import RouteCoverage.Project
import RouteCoverage.Proofs.FirstFailure
import RouteCoverage.Proofs.Run.Transcript

/-!
# A run is composed of the runs over its files

No state leads from one file or route to the next: when the answers of the sources do not depend
on what was reported before, the result of a run is put together from the results of the runs over
each accepted file alone (`run_steady_eq`).  Their summaries add up, and the first file whose own
run fails decides.  So files that give no named route can be put in anywhere without a change to
what the run finds or to how it fails (`run_by_file`).
-/

namespace RouteCoverage

namespace Sources

/-- Sources whose answers do not depend on the events. -/
def steady (read : Path → Except SourceError (List Route))
    (load : String → Except TraceError Trace) : Sources :=
  ⟨fun _ => read, fun _ => load⟩

end Sources

/-- Without a log, the files of a project do not change during a run. -/
theorem Project.sources_eq_steady [Source.Parser] {settings : Settings}
    (h : settings.eventLog = none) (timestamp : Nat) (tree : FileTree) :
    sources settings timestamp tree =
      .steady (routesOfFile tree) (DumpDirectory.load tree settings.resolvedDumpDir) := by
  have hlogged : ∀ events, logged settings timestamp tree events = tree := by
    intro events
    rw [logged, Settings.resolvedEventLog, h]
    rfl
  unfold sources Sources.steady
  simp only [hlogged]

namespace Summary

/-- A summary is put together from the summaries of parts: its numbers are their sums, and its
lists are theirs one after another. -/
structure Joins (s : Summary) (parts : List Summary) : Prop where
  discovered : s.discovered = (parts.map discovered).sum
  anonymous : s.anonymous = (parts.map anonymous).sum
  parseFailures : s.parseFailures = (parts.map parseFailures).sum
  notFullyCovered : s.notFullyCovered = (parts.map notFullyCovered).sum
  missing : s.missing = parts.flatMap missing
  reports : s.reports = parts.flatMap reports

/-- What a run found out about routes with an id. -/
def findings (s : Summary) : List String × List RouteReport × Nat :=
  (s.missing, s.reports, s.notFullyCovered)

def empty : Summary := ⟨0, 0, 0, [], []⟩

/-- The summary of two parts. -/
def append (s t : Summary) : Summary where
  discovered := s.discovered + t.discovered
  anonymous := s.anonymous + t.anonymous
  parseFailures := s.parseFailures + t.parseFailures
  missing := s.missing ++ t.missing
  reports := s.reports ++ t.reports

def join (parts : List Summary) : Summary := parts.foldr append empty

theorem notFullyCovered_append (s t : Summary) :
    (s.append t).notFullyCovered = s.notFullyCovered + t.notFullyCovered := by
  rw [notFullyCovered, append, List.filter_append, List.length_append]
  rfl

theorem joins_join (parts : List Summary) : (join parts).Joins parts := by
  induction parts with
  | nil => exact ⟨rfl, rfl, rfl, rfl, rfl, rfl⟩
  | cons s parts ih =>
      have hjoin : join (s :: parts) = s.append (join parts) := rfl
      constructor
      · rw [hjoin, List.map_cons, List.sum_cons, ← ih.discovered]
        rfl
      · rw [hjoin, List.map_cons, List.sum_cons, ← ih.anonymous]
        rfl
      · rw [hjoin, List.map_cons, List.sum_cons, ← ih.parseFailures]
        rfl
      · rw [hjoin, List.map_cons, List.sum_cons, ← ih.notFullyCovered, notFullyCovered_append]
      · rw [hjoin, List.flatMap_cons, ← ih.missing]
        rfl
      · rw [hjoin, List.flatMap_cons, ← ih.reports]
        rfl

/-- Only one summary is put together from given parts. -/
theorem joins_iff {s : Summary} {parts : List Summary} : s.Joins parts ↔ s = join parts := by
  constructor
  · intro h
    have h' := joins_join parts
    cases s
    cases hjoin : join parts
    rw [hjoin] at h'
    rw [mk.injEq]
    exact ⟨h.discovered.trans h'.discovered.symm, h.anonymous.trans h'.anonymous.symm,
      h.parseFailures.trans h'.parseFailures.symm, h.missing.trans h'.missing.symm,
      h.reports.trans h'.reports.symm⟩
  · rintro rfl
    exact joins_join parts

/-- Findings with those of a part before them. -/
def addTo (s : Summary) (f : List String × List RouteReport × Nat) :
    List String × List RouteReport × Nat :=
  (s.missing ++ f.1, s.reports ++ f.2.1, s.notFullyCovered + f.2.2)

theorem findings_append (s t : Summary) : (s.append t).findings = s.addTo t.findings := by
  rw [findings, notFullyCovered_append]
  rfl

end Summary

namespace Run

/-! ### What a run asks when the answers are fixed -/

section

variable (read : Path → Except SourceError (List Route)) (load : String → Except TraceError Trace)

/-- The answers for some files and for all named routes of theirs. -/
def answers (files : List Path) : Transcript :=
  let reads := files.map fun file => (file, read file)
  ⟨reads, (named (reads.flatMap FileRead.routes)).map fun q => (q, load q.1)⟩

theorem readRoutes_steady (files : List Path) : ∀ history : List Event,
    readRoutes (.steady read load) history files =
      ((answers read load files).reads.flatMap FileRead.events,
        (answers read load files).routes) := by
  induction files with
  | nil => exact fun _ => rfl
  | cons file files ih =>
      intro history
      unfold answers Transcript.routes at ih ⊢
      rw [readRoutes, List.map_cons, List.flatMap_cons, List.flatMap_cons]
      cases hanswer : (Sources.steady read load).routes history file with
      | ok routes =>
          have hread : read file = .ok routes := hanswer
          rw [hread]
          dsimp only
          rw [ih]
          rfl
      | error e =>
          have hread : read file = .error e := hanswer
          rw [hread]
          dsimp only
          rw [ih]
          rfl

theorem coverAll_steady (basedir : Path) (routes : List (String × Route)) :
    ∀ history : List Event, (coverAll (.steady read load) basedir history routes).2 =
      (routes.map fun q => (q, load q.1)).mapM (Lookup.outcome basedir) := by
  induction routes with
  | nil => exact fun _ => rfl
  | cons q routes ih =>
      intro history
      obtain ⟨id, route⟩ := q
      have hcover := coverRoute_eq (.steady read load) basedir history id route
      rw [coverAll, hcover, List.map_cons, List.mapM_cons]
      have htrace : (Sources.steady read load).trace history id = load id := rfl
      rw [htrace]
      cases houtcome : Lookup.outcome basedir ((id, route), load id) with
      | error e => rfl
      | ok outcome =>
          dsimp only
          rw [ih]
          rfl

/-- The result of a run over fixed answers is that of the answers for the accepted files. -/
theorem run_steady_eq [Dialect] (settings : Settings) (found : Discovered) :
    (run settings found (.steady read load)).2 =
      (answers read load (settings.fileFilter.filter found.java)).result settings := by
  unfold run
  dsimp only
  rw [readRoutes_steady]
  dsimp only
  rw [coverAll_steady]
  rfl

end

/-! ### One file after another -/

namespace Transcript

/-- One transcript after another. -/
def append (t u : Transcript) : Transcript := ⟨t.reads ++ u.reads, t.lookups ++ u.lookups⟩

theorem routes_append (t u : Transcript) : (t.append u).routes = t.routes ++ u.routes :=
  List.flatMap_append

theorem summary_append (t u : Transcript) (outcomes more : List Outcome) :
    (t.append u).summary (outcomes ++ more) = (t.summary outcomes).append (u.summary more) := by
  unfold summary Summary.append anonymous missing reports
  rw [routes_append, List.filter_append, List.length_append, List.length_append,
    List.filterMap_append, List.filterMap_append]
  have hreads : (t.append u).reads = t.reads ++ u.reads := rfl
  rw [hreads, List.flatMap_append, List.length_append]

/-- The result of one transcript after another: the first failure, or both summaries. -/
theorem result_append (settings : Settings) (t u : Transcript) :
    (t.append u).result settings =
      (do
        let s ← t.result settings
        let s' ← u.result settings
        return s.append s') := by
  have hlookups : (t.append u).lookups = t.lookups ++ u.lookups := rfl
  unfold result
  rw [hlookups, List.mapM_append]
  cases t.lookups.mapM (Lookup.outcome settings.layout.basedir) with
  | error e => rfl
  | ok outcomes =>
      cases u.lookups.mapM (Lookup.outcome settings.layout.basedir) with
      | error e => rfl
      | ok more => exact congrArg Except.ok (summary_append t u outcomes more)

end Transcript

section

variable (settings : Settings) (read : Path → Except SourceError (List Route))
  (load : String → Except TraceError Trace)

theorem answers_append (files more : List Path) :
    answers read load (files ++ more) =
      (answers read load files).append (answers read load more) := by
  unfold answers Transcript.append named
  dsimp only
  rw [List.map_append, List.flatMap_append, List.filterMap_append, List.map_append]

def resultOfFile (file : Path) : Except RunError Summary :=
  (answers read load [file]).result settings

/-- The files are gone through one by one up to the first whose own result is a failure, and the
summaries of all of them are put together. -/
theorem result_answers (files : List Path) :
    (answers read load files).result settings =
      (files.mapM (resultOfFile settings read load)).map Summary.join := by
  induction files with
  | nil => rfl
  | cons file files ih =>
      rw [← List.singleton_append, answers_append, Transcript.result_append, ih,
        List.singleton_append, List.mapM_cons, resultOfFile]
      cases (answers read load [file]).result settings with
      | error e => rfl
      | ok s => cases files.mapM (resultOfFile settings read load) <;> rfl

theorem run_alone [Dialect] {file : Path} (h : settings.fileFilter.accepts file = true) :
    (run settings ⟨[file], []⟩ (.steady read load)).2 = resultOfFile settings read load file := by
  rw [run_steady_eq, FileFilter.filter, List.filter_cons_of_pos h, List.filter_nil]
  rfl

variable {settings read}

theorem resultOfFile_of_named_eq_nil {file : Path}
    (h : named (FileRead.routes (file, read file)) = []) :
    resultOfFile settings read load file = .ok ((answers read load [file]).summary []) := by
  have hlookups : (answers read load [file]).lookups = [] := by
    unfold answers
    dsimp only
    rw [List.map_singleton, List.flatMap_singleton, h]
    rfl
  rw [resultOfFile, Transcript.result, hlookups]
  rfl

theorem exists_read_of_resultOfFile_eq_error {file : Path} {e : RunError}
    (h : resultOfFile settings read load file = .error e) : ∃ routes, read file = .ok routes := by
  cases hread : read file with
  | ok routes => exact ⟨routes, rfl⟩
  | error cause =>
      have hnamed : named (FileRead.routes (file, read file)) = [] := by
        rw [hread]
        rfl
      rw [resultOfFile_of_named_eq_nil load hnamed] at h
      cases h

end

/-! ### Files without named routes -/

/-- `more` holds the elements of `l` in their order, and between them any others for which
`extra` holds. -/
inductive Widens {α : Type} (extra : α → Prop) : List α → List α → Prop
  | nil : Widens extra [] []
  | keep (a : α) {l more : List α} : Widens extra l more → Widens extra (a :: l) (a :: more)
  | add {a : α} {l more : List α} : extra a → Widens extra l more → Widens extra l (a :: more)

section

variable [Dialect] (settings : Settings)
  (read : Path → Except SourceError (List Route)) (load : String → Except TraceError Trace)

/-- A file that gives a run no named route: it is rejected, it cannot be read, or none of its
routes has an id. -/
def GivesNoRoute (file : Path) : Prop :=
  settings.fileFilter.accepts file = false ∨ (∃ e, read file = .error e) ∨
    ∃ routes, read file = .ok routes ∧ ∀ r ∈ routes, r.id = none

/-- The findings in the accepted ones of some files. -/
def findingsIn (files : List Path) : Except RunError (List String × List RouteReport × Nat) :=
  ((answers read load (settings.fileFilter.filter files)).result settings).map Summary.findings

/-- A rejected file takes no part. -/
theorem findingsIn_cons_of_rejected {file : Path} {files : List Path}
    (h : settings.fileFilter.accepts file = false) :
    findingsIn settings read load (file :: files) = findingsIn settings read load files := by
  rw [findingsIn, FileFilter.filter, List.filter_cons_of_neg (by simp [h])]
  rfl

theorem findingsIn_cons {file : Path} {files : List Path}
    (h : settings.fileFilter.accepts file = true) :
    findingsIn settings read load (file :: files) =
      (do
        let s ← resultOfFile settings read load file
        let f ← findingsIn settings read load files
        return s.addTo f) := by
  unfold findingsIn resultOfFile
  rw [FileFilter.filter, List.filter_cons_of_pos h, ← FileFilter.filter, ← List.singleton_append,
    answers_append, Transcript.result_append]
  cases (answers read load [file]).result settings with
  | error e => rfl
  | ok s =>
      cases (answers read load (settings.fileFilter.filter files)).result settings with
      | error e => rfl
      | ok t => exact congrArg Except.ok (Summary.findings_append s t)

variable {settings read}

theorem exists_resultOfFile_of_givesNoRoute {file : Path} (h : GivesNoRoute settings read file)
    (haccepts : settings.fileFilter.accepts file = true) :
    ∃ s, resultOfFile settings read load file = .ok s ∧ ∀ f, s.addTo f = f := by
  have hnamed : named (FileRead.routes (file, read file)) = [] := by
    rcases h with hrejected | ⟨e, he⟩ | ⟨routes, hroutes, hnone⟩
    · rw [haccepts] at hrejected
      cases hrejected
    · rw [he]
      rfl
    · rw [hroutes]
      refine List.filterMap_eq_nil_iff.mpr fun r hr => ?_
      rw [hnone r hr]
      rfl
  exact ⟨_, resultOfFile_of_named_eq_nil load hnamed,
    fun f => congrArg (f.1, f.2.1, ·) (Nat.zero_add f.2.2)⟩

/-- Files without named routes can be put in anywhere. -/
theorem findingsIn_of_widens {files more : List Path}
    (h : Widens (GivesNoRoute settings read) files more) :
    findingsIn settings read load more = findingsIn settings read load files := by
  induction h with
  | nil => rfl
  | keep file hwidens ih =>
      cases haccepts : settings.fileFilter.accepts file with
      | true => rw [findingsIn_cons _ _ _ haccepts, findingsIn_cons _ _ _ haccepts, ih]
      | false =>
          rw [findingsIn_cons_of_rejected _ _ _ haccepts,
            findingsIn_cons_of_rejected _ _ _ haccepts, ih]
  | @add file files more hnone hwidens ih =>
      cases haccepts : settings.fileFilter.accepts file with
      | true =>
          obtain ⟨s, hs, hadd⟩ := exists_resultOfFile_of_givesNoRoute load hnone haccepts
          rw [findingsIn_cons _ _ _ haccepts, hs, ih]
          simp only [bind, Except.bind, hadd]
          cases findingsIn settings read load files <;> rfl
      | false => rw [findingsIn_cons_of_rejected _ _ _ haccepts, ih]

end

/-! ### A run file by file -/

/-- The result of a run, when the answers of its sources do not depend on what was reported.  It
has a summary exactly if the run over each accepted file alone has one; then its numbers are the
sums of theirs, and its lists are theirs one after another.  It fails exactly with the failure of
the first accepted file whose own run fails, which is a file that can be read.  Files that give no
named route, and any other files of the kind that nothing reads, change neither what is found out
about the named routes nor how the run fails. -/
theorem run_by_file [Dialect] (settings : Settings) (found : Discovered)
    (read : Path → Except SourceError (List Route)) (load : String → Except TraceError Trace) :
    let sources := Sources.steady read load
    let alone := fun file => (run settings ⟨[file], []⟩ sources).2
    let accepted := found.java.filter settings.fileFilter.accepts
    (∀ s, (run settings found sources).2 = .ok s ↔
      ∃ parts, accepted.map alone = parts.map .ok ∧ s.Joins parts) ∧
    (∀ e, (run settings found sources).2 = .error e ↔
      ∃ before file after, accepted = before ++ file :: after ∧
        (∀ f ∈ before, ∃ s, alone f = .ok s) ∧ (∃ routes, read file = .ok routes) ∧
        alone file = .error e) ∧
    ∀ java xml, Widens (GivesNoRoute settings read) found.java java →
      (run settings ⟨java, xml⟩ sources).2.map Summary.findings =
        (run settings found sources).2.map Summary.findings := by
  dsimp only
  rw [run_steady_eq, FileFilter.filter, result_answers]
  have halone : ∀ file ∈ found.java.filter settings.fileFilter.accepts,
      (run settings ⟨[file], []⟩ (.steady read load)).2 = resultOfFile settings read load file :=
    fun file hfile => run_alone settings read load (List.mem_filter.mp hfile).2
  refine ⟨fun s => ?_, fun e => ?_, fun java xml h => ?_⟩
  · rw [List.map_congr_left halone]
    simp only [Summary.joins_iff, ← mapM_eq_ok_iff]
    cases (found.java.filter settings.fileFilter.accepts).mapM
      (resultOfFile settings read load) with
    | error e => simp [Except.map]
    | ok parts => simp [Except.map, eq_comm]
  · have hfailed : ∀ result : Except RunError (List Summary),
        result.map Summary.join = .error e ↔ result = .error e := by
      rintro (e' | parts) <;> simp [Except.map]
    rw [hfailed, mapM_eq_error_iff]
    constructor
    · rintro ⟨before, file, after, hfiles, hbefore, hfile⟩
      rw [hfiles] at halone ⊢
      refine ⟨before, file, after, rfl, fun f hf => ?_, ?_, ?_⟩
      · rw [halone f (List.mem_append_left _ hf)]
        exact hbefore f hf
      · exact exists_read_of_resultOfFile_eq_error load hfile
      · rw [halone file List.mem_append_cons_self]
        exact hfile
    · rintro ⟨before, file, after, hfiles, hbefore, -, hfile⟩
      rw [hfiles] at halone ⊢
      refine ⟨before, file, after, rfl, fun f hf => ?_, ?_⟩
      · rw [← halone f (List.mem_append_left _ hf)]
        exact hbefore f hf
      · rw [← halone file List.mem_append_cons_self]
        exact hfile
  · have hfindings := findingsIn_of_widens load h
    rw [run_steady_eq, ← result_answers]
    exact hfindings

end Run

end RouteCoverage
