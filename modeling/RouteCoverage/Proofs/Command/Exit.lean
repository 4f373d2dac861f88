import RouteCoverage.Pattern.Usual
import RouteCoverage.Proofs.Command.Closing
import RouteCoverage.Proofs.Files.Lookup
import RouteCoverage.Proofs.Run.Accounts
import RouteCoverage.Source.File

/-!
# How the command ends

The exit code of a run, and whether its output closes with the line that all routes are fully
covered, are decided by three facts: whether the trace of a named route cannot be loaded, whether
a named route with a trace has a step without a hit, and whether the gate is on (`Decides`).
`run_decides` says so of every run of the command, first for the answers that the run was given
while its log grew, and then, when the log lies apart from what is read, for the files of the
project themselves.
-/

namespace RouteCoverage

namespace Run

theorem mem_named_iff {routes : List Route} {id : String} {route : Route} :
    (id, route) ∈ named routes ↔ route ∈ routes ∧ route.id = some id := by
  unfold named
  rw [List.mem_filterMap]
  constructor
  · rintro ⟨r, hr, hnamed⟩
    obtain ⟨id', hid, heq⟩ := Option.map_eq_some_iff.mp hnamed
    obtain ⟨rfl, rfl⟩ := Prod.mk.inj heq
    exact ⟨hr, hid⟩
  · rintro ⟨hr, hid⟩
    refine ⟨route, hr, ?_⟩
    rw [hid]
    rfl

/-! ### What the look-ups of a run decide -/

namespace Lookup

/-- A route is left uncovered when something was recorded for it, and one of its steps has no
hit. -/
def LeavesUncovered (l : Lookup) : Prop :=
  ∃ trace, l.2 = .ok trace ∧ trace ≠ [] ∧ ∃ e ∈ aggregate l.1.2.root trace, e.hits.count = 0

end Lookup

/-- Loaded routes have outcomes. -/
theorem Loaded.mapM_outcome_lookup (basedir : Path) (loaded : List Loaded) :
    (loaded.map lookup).mapM (Lookup.outcome basedir) = .ok (loaded.map (outcome basedir)) := by
  have houtcome : Lookup.outcome basedir ∘ lookup = fun l => pure (l.outcome basedir) :=
    funext (outcome_lookup basedir)
  rw [List.mapM_map, houtcome, List.mapM_pure]
  rfl

theorem Loaded.leavesUncovered_lookup (basedir : Path) (l : Loaded) :
    l.lookup.LeavesUncovered ↔
      l.trace.isEmpty = false ∧ (l.report basedir).report.isFullyCovered = false := by
  have huncovered : (l.report basedir).report.isFullyCovered = false ↔
      ∃ e ∈ aggregate l.route.root l.trace, e.hits.count = 0 := by
    rw [← Bool.not_eq_true', l.isFullyCovered_report basedir, List.any_eq_true]
    simp only [decide_eq_true_eq]
    rfl
  rw [huncovered, List.isEmpty_eq_false_iff]
  constructor
  · rintro ⟨trace, htrace, hne, hstep⟩
    obtain rfl : l.trace = trace := Except.ok.inj htrace
    exact ⟨hne, hstep⟩
  · rintro ⟨hne, hstep⟩
    exact ⟨l.trace, rfl, hne, hstep⟩

namespace Transcript

variable {settings : Settings} {found : Discovered} {sources : Sources} {t : Transcript}

theorem notFullyCovered_ne_zero_iff (basedir : Path) (t : Transcript) (loaded : List Loaded) :
    (t.summary (loaded.map (Loaded.outcome basedir))).notFullyCovered ≠ 0 ↔
      ∃ l ∈ loaded.map Loaded.lookup, l.LeavesUncovered := by
  have hreports : (t.summary (loaded.map (Loaded.outcome basedir))).reports =
      (loaded.filter (!·.trace.isEmpty)).map (Loaded.report basedir) :=
    reports_map_outcome basedir loaded
  rw [Summary.notFullyCovered, hreports, ← Nat.pos_iff_ne_zero, List.length_filter_pos_iff]
  constructor
  · rintro ⟨r, hr, hcovered⟩
    obtain ⟨l, hl, rfl⟩ := List.mem_map.mp hr
    obtain ⟨hl, hrecorded⟩ := List.mem_filter.mp hl
    refine ⟨l.lookup, List.mem_map_of_mem hl, (l.leavesUncovered_lookup basedir).mpr ⟨?_, ?_⟩⟩
    · exact (Bool.not_eq_true' _).mp hrecorded
    · exact (Bool.not_eq_true' _).mp hcovered
  · rintro ⟨lookup, hlookup, huncovered⟩
    obtain ⟨l, hl, rfl⟩ := List.mem_map.mp hlookup
    obtain ⟨hrecorded, hcovered⟩ := (l.leavesUncovered_lookup basedir).mp huncovered
    refine ⟨l.report basedir, List.mem_map_of_mem (List.mem_filter.mpr ⟨hl, ?_⟩), ?_⟩
    · exact (Bool.not_eq_true' _).mpr hrecorded
    · exact (Bool.not_eq_true' _).mpr hcovered

/-- A run fails when the trace of a route cannot be loaded.  Otherwise the trace of every named
route is loaded, and the summary counts a route exactly if some route is left uncovered. -/
theorem result_cases [Dialect] (h : t.Of settings found sources) :
    ((∃ l ∈ t.lookups, Lookup.Stops l.2) ∧ ∃ e, t.result settings = .error e) ∨
      ((¬ ∃ l ∈ t.lookups, Lookup.Stops l.2) ∧ ∃ s, t.result settings = .ok s ∧
        (s.notFullyCovered ≠ 0 ↔ ∃ l ∈ t.lookups, l.LeavesUncovered)) := by
  rcases h.lookups.complete_or_stopped with ⟨hall, -⟩ | ⟨earlier, l, hl, hall, hstops⟩
  · right
    obtain ⟨loaded, hloaded⟩ := Loaded.exists_loaded hall
    refine ⟨fun ⟨l, hl, hstops⟩ => hall l hl hstops,
      t.summary (loaded.map (Loaded.outcome settings.layout.basedir)), ?_, ?_⟩
    · rw [result, hloaded, Loaded.mapM_outcome_lookup]
      rfl
    · rw [hloaded]
      exact notFullyCovered_ne_zero_iff _ t loaded
  · left
    obtain ⟨⟨id, route⟩, answer⟩ := l
    obtain ⟨e, rfl⟩ := hstops
    refine ⟨⟨((id, route), .error e), ?_, e, rfl⟩, ⟨id, e⟩, ?_⟩
    · rw [hl]
      exact List.mem_append_cons_self
    · rw [result, hl, Lookup.mapM_outcome_of_stops hall]
      rfl

end Transcript

end Run

namespace Project

open Run (Transcript Lookup)

/-! ### What the files of a project decide -/

variable [Source.Parser]

section

variable [Dialect] (settings : Settings) (timestamp : Nat) (tree : FileTree)

/-- A route with an id, of an accepted file whose routes can be read. -/
def NamedRoute (id : String) (route : Route) : Prop :=
  ∃ file ∈ (found settings tree).java, settings.fileFilter.accepts file = true ∧
    ∃ routes, routesOfFile tree file = .ok routes ∧ route ∈ routes ∧ route.id = some id

/-- The trace of some named route cannot be loaded. -/
def FailsToLoad : Prop :=
  ∃ id route, NamedRoute settings tree id route ∧
    ∃ e, DumpDirectory.load tree settings.resolvedDumpDir id = .error e

/-- Some named route has a trace and a step without a hit. -/
def LeavesUncovered : Prop :=
  ∃ id route, NamedRoute settings tree id route ∧
    ∃ trace, DumpDirectory.load tree settings.resolvedDumpDir id = .ok trace ∧ trace ≠ [] ∧
      ∃ e ∈ aggregate route.root trace, e.hits.count = 0

/-- The log of a run lies apart from the files that the run reads: while the log grows, they hold
the same routes and traces. -/
structure LogApart : Prop where
  routes : ∀ events, ∀ file ∈ (found settings tree).java,
    routesOfFile (logged settings timestamp tree events) file = routesOfFile tree file
  traces : ∀ events id,
    DumpDirectory.load (logged settings timestamp tree events) settings.resolvedDumpDir id =
      DumpDirectory.load tree settings.resolvedDumpDir id

end

variable {settings : Settings} {timestamp : Nat} {tree : FileTree} {t : Transcript}

/-- A run without a log has none among the files that it reads. -/
theorem logApart_of_eventLog_eq_none (h : settings.eventLog = none) :
    LogApart settings timestamp tree := by
  have hlogged : ∀ events, logged settings timestamp tree events = tree := by
    intro events
    rw [logged, Settings.resolvedEventLog, h]
    rfl
  constructor
  · intro events file _
    rw [hlogged]
  · intro events id
    rw [hlogged]

variable [Dialect]

/-- The routes that a run looks up are the named routes of the project. -/
theorem mem_named_routes_iff (hlog : LogApart settings timestamp tree)
    (ht : t.Of settings (found settings tree) (sources settings timestamp tree))
    {id : String} {route : Route} :
    (id, route) ∈ Run.named t.routes ↔ NamedRoute settings tree id route := by
  have hfiles : t.reads.map Prod.fst =
      (found settings tree).java.filter settings.fileFilter.accepts :=
    ht.reads.complete fun _ _ hstops => hstops
  have hread : ∀ r ∈ t.reads, r.1 ∈ (found settings tree).java ∧
      settings.fileFilter.accepts r.1 = true ∧ r.2 = routesOfFile tree r.1 := by
    intro r hr
    have hfile := List.mem_map_of_mem (f := Prod.fst) hr
    rw [hfiles, List.mem_filter] at hfile
    obtain ⟨before, hanswer⟩ := ht.reads.exists_answered hr
    exact ⟨hfile.1, hfile.2, hanswer.trans (hlog.routes _ r.1 hfile.1)⟩
  rw [Run.mem_named_iff, Transcript.routes, List.mem_flatMap]
  constructor
  · rintro ⟨⟨r, hr, hroute⟩, hid⟩
    obtain ⟨hjava, haccepts, hanswer⟩ := hread r hr
    obtain ⟨file, answer⟩ := r
    cases answer with
    | error e => cases hroute
    | ok routes => exact ⟨file, hjava, haccepts, routes, hanswer.symm, hroute, hid⟩
  · rintro ⟨file, hjava, haccepts, routes, hroutes, hroute, hid⟩
    have hfile : file ∈ t.reads.map Prod.fst := by
      rw [hfiles]
      exact List.mem_filter.mpr ⟨hjava, haccepts⟩
    obtain ⟨r, hr, rfl⟩ := List.mem_map.mp hfile
    obtain ⟨-, -, hanswer⟩ := hread r hr
    obtain ⟨file, answer⟩ := r
    obtain rfl : answer = .ok routes := hanswer.trans hroutes
    exact ⟨⟨_, hr, hroute⟩, hid⟩

theorem of_mem_lookups (hlog : LogApart settings timestamp tree)
    (ht : t.Of settings (found settings tree) (sources settings timestamp tree))
    {id : String} {route : Route} {answer : Except TraceError Trace}
    (h : ((id, route), answer) ∈ t.lookups) :
    NamedRoute settings tree id route ∧
      answer = DumpDirectory.load tree settings.resolvedDumpDir id := by
  obtain ⟨before, hanswer⟩ := ht.lookups.exists_answered h
  have hnamed := ht.lookups.order.subset (List.mem_map_of_mem h)
  exact ⟨(mem_named_routes_iff hlog ht).mp hnamed, hanswer.trans (hlog.traces _ id)⟩

theorem mem_lookups (hlog : LogApart settings timestamp tree)
    (ht : t.Of settings (found settings tree) (sources settings timestamp tree))
    (hloaded : ¬ ∃ l ∈ t.lookups, Lookup.Stops l.2) {id : String} {route : Route}
    (h : NamedRoute settings tree id route) :
    ((id, route), DumpDirectory.load tree settings.resolvedDumpDir id) ∈ t.lookups := by
  have hall := ht.lookups.complete fun l hl hstops => hloaded ⟨l, hl, hstops⟩
  have hnamed := (mem_named_routes_iff hlog ht).mpr h
  rw [← hall] at hnamed
  obtain ⟨⟨q, answer⟩, hl, rfl⟩ := List.mem_map.mp hnamed
  obtain ⟨-, rfl⟩ := of_mem_lookups hlog ht hl
  exact hl

/-- A look-up fails exactly if a trace cannot be loaded. -/
theorem exists_stops_iff (hlog : LogApart settings timestamp tree)
    (ht : t.Of settings (found settings tree) (sources settings timestamp tree)) :
    (∃ l ∈ t.lookups, Lookup.Stops l.2) ↔ FailsToLoad settings tree := by
  constructor
  · rintro ⟨⟨⟨id, route⟩, answer⟩, hl, e, he⟩
    obtain ⟨hnamed, hanswer⟩ := of_mem_lookups hlog ht hl
    exact ⟨id, route, hnamed, e, hanswer.symm.trans he⟩
  · rintro ⟨id, route, hnamed, e, he⟩
    -- the run may break off earlier, but then by another failure
    by_contra hloaded
    exact hloaded ⟨_, mem_lookups hlog ht hloaded hnamed, e, he⟩

/-- If nothing fails, a look-up leaves its route uncovered exactly if the project has such a
route. -/
theorem exists_leavesUncovered_iff (hlog : LogApart settings timestamp tree)
    (ht : t.Of settings (found settings tree) (sources settings timestamp tree))
    (hloaded : ¬ ∃ l ∈ t.lookups, Lookup.Stops l.2) :
    (∃ l ∈ t.lookups, l.LeavesUncovered) ↔ LeavesUncovered settings tree := by
  constructor
  · rintro ⟨⟨⟨id, route⟩, answer⟩, hl, trace, htrace, huncovered⟩
    obtain ⟨hnamed, hanswer⟩ := of_mem_lookups hlog ht hl
    exact ⟨id, route, hnamed, trace, hanswer.symm.trans htrace, huncovered⟩
  · rintro ⟨id, route, hnamed, huncovered⟩
    exact ⟨_, mem_lookups hlog ht hloaded hnamed, huncovered⟩

end Project

/-! ### Directories with one file -/

def FileNode.onlyFile (name text : String) : FileNode := .directory [(name, .file text.toUTF8)]

theorem filesOfRoot_onlyFile {tree : FileTree} {root : Path} {extension name text : String}
    (h : tree.find root = .ok (.onlyFile name text)) (hextension : hasExtension extension name) :
    filesOfRoot extension tree root = [root.join ⟨name⟩] := by
  rw [filesOfRoot, h]
  simp [FileNode.onlyFile, filesBelow, filesOfEntries, hextension]

theorem DumpDirectory.files_onlyFile {tree : FileTree} {dir : Path} {name text : String}
    (h : tree.find dir = .ok (.onlyFile name text))
    (hextension : (dir.join ⟨name⟩).extension? = some "xml") :
    files tree dir = [dir.join ⟨name⟩] := by
  rw [files, FileTree.directory?, h]
  simp [FileNode.onlyFile, hextension]

namespace Command

open CommandLine (Options)
open Run (Transcript Lookup)

/-! ### What a result shows -/

/-- How a run ends: by whether it `fails`, by whether it leaves a route `uncovered`, and by the
gate. -/
structure Decides (gate : Bool) (fails uncovered : Prop) (r : Result) : Prop where
  failure : r.exit = 1 ↔ fails
  refused : r.exit = 2 ↔ ¬ fails ∧ gate = true ∧ uncovered
  success : r.exit = 0 ↔ ¬ fails ∧ ¬ (gate = true ∧ uncovered)
  /-- the line that all reports are fully covered closes the output whether or not the gate is
  on -/
  closing : (∃ n, EndsWithLine r.out (allCoveredLine n)) ↔ ¬ fails ∧ ¬ uncovered

namespace Decides

variable {gate : Bool} {fails uncovered fails' uncovered' : Prop} {r : Result}

/-- A run that fails is neither refused nor closed. -/
theorem of_failure (hfails : fails) (hexit : r.exit = 1)
    (hout : ∀ n, ¬ EndsWithLine r.out (allCoveredLine n)) : Decides gate fails uncovered r where
  failure := iff_of_true hexit hfails
  refused := iff_of_false (by omega) fun h => h.1 hfails
  success := iff_of_false (by omega) fun h => h.1 hfails
  closing := iff_of_false (fun ⟨n, hn⟩ => hout n hn) fun h => h.1 hfails

theorem of_finished {count : Nat} (hfails : ¬ fails) (hcount : count ≠ 0 ↔ uncovered)
    (hexit : r.exit = if gate = true ∧ count ≠ 0 then 2 else 0)
    (hclosing : (∃ n, EndsWithLine r.out (allCoveredLine n)) ↔ count = 0) :
    Decides gate fails uncovered r := by
  obtain rfl : (count ≠ 0) = uncovered := propext hcount
  by_cases hrefused : gate = true ∧ count ≠ 0
  · rw [if_pos hrefused] at hexit
    constructor
    · exact iff_of_false (by omega) hfails
    · exact iff_of_true hexit ⟨hfails, hrefused⟩
    · exact iff_of_false (by omega) fun h => h.2 hrefused
    · rw [hclosing, and_iff_right hfails, not_ne_iff]
  · rw [if_neg hrefused] at hexit
    constructor
    · exact iff_of_false (by omega) hfails
    · exact iff_of_false (by omega) fun h => hrefused h.2
    · exact iff_of_true hexit ⟨hfails, hrefused⟩
    · rw [hclosing, and_iff_right hfails, not_ne_iff]

theorem congr (h : Decides gate fails uncovered r) (hfails : fails ↔ fails')
    (huncovered : ¬ fails → (uncovered ↔ uncovered')) : Decides gate fails' uncovered' r := by
  obtain rfl : fails = fails' := propext hfails
  by_cases hf : fails
  · constructor
    · exact h.failure
    · simpa only [hf, not_true_eq_false, false_and] using h.refused
    · simpa only [hf, not_true_eq_false, false_and] using h.success
    · simpa only [hf, not_true_eq_false, false_and] using h.closing
  · obtain rfl : uncovered = uncovered' := propext (huncovered hf)
    exact h

end Decides

/-! ### The run of the command -/

/-- The gate is on when the arguments or the settings file of the project ask for it; a settings
file that is not valid does not. -/
theorem failOnError_settings_iff (options : Options) (tree : FileTree) :
    (settings options tree).failOnError = true ↔ options.failOnError = true ∨
      ∃ file, SettingsFile.find tree options.basedir = some (.ok file) ∧
        file.failOnError = true := by
  have hsettings : (settings options tree).failOnError =
      ((Settings.load tree options.basedir).failOnError || options.failOnError) := rfl
  rw [hsettings, Bool.or_eq_true, or_comm]
  refine or_congr_right ?_
  unfold Settings.load
  match SettingsFile.find tree options.basedir with
  | none => exact iff_of_false Bool.false_ne_true fun ⟨_, h, _⟩ => nomatch h
  | some (.error fault) => exact iff_of_false Bool.false_ne_true fun ⟨_, h, _⟩ => nomatch h
  | some (.ok file) =>
      constructor
      · intro h
        exact ⟨file, rfl, h⟩
      · rintro ⟨_, ⟨⟩, h⟩
        exact h

theorem exit_ending_ok (s : Settings) (summary : Summary) :
    (ending s (.ok summary)).1.toNat =
      if s.failOnError = true ∧ summary.notFullyCovered ≠ 0 then 2 else 0 := by
  unfold ending verdict
  dsimp only
  cases s.failOnError <;> by_cases h : summary.notFullyCovered = 0 <;>
    simp [h, Nat.pos_iff_ne_zero, ExitCode.ofVerdict, ExitCode.toNat]

theorem out_ending_ok (s : Settings) (summary : Summary) :
    (ending s (.ok summary)).2.out = (Console.summary s.failOnError summary).out := by
  unfold ending
  dsimp only
  rw [Console.out_append]
  cases verdict s.failOnError summary.notFullyCovered <;> exact List.append_nil _

section

variable [Dialect] [Source.Parser] {timestamp : Nat} {arguments : List String} {tree : FileTree}
  {options : Options} {t : Transcript}

theorem run_of_transcript (hoptions : Options.ofArguments arguments = .ok options)
    (hinit : options.init = false)
    (ht : t.Of (settings options tree) (Project.found (settings options tree) tree)
      (Project.sources (settings options tree) timestamp tree)) :
    let s := settings options tree
    let last := ending s (t.result s)
    (run timestamp arguments tree).exit = last.1.toNat ∧
      (run timestamp arguments tree).out = unlines ((opening s).out ++
        Run.written s.verbose (t.events s (Project.found s tree)) ++ last.2.out) := by
  have hrun := Run.run_eq_of_transcript ht
  unfold run report
  rw [hoptions]
  dsimp only
  rw [hinit, if_neg Bool.false_ne_true, hrun]
  refine ⟨rfl, ?_⟩
  dsimp only
  rw [result, Console.out_append, out_settingsWarning, List.nil_append, Console.out_append,
    Console.out_append]
  rfl

theorem decides_of_transcript (hoptions : Options.ofArguments arguments = .ok options)
    (hinit : options.init = false)
    (ht : t.Of (settings options tree) (Project.found (settings options tree) tree)
      (Project.sources (settings options tree) timestamp tree)) :
    Decides (settings options tree).failOnError (∃ l ∈ t.lookups, Lookup.Stops l.2)
      (∃ l ∈ t.lookups, l.LeavesUncovered) (run timestamp arguments tree) := by
  obtain ⟨hexit, hout⟩ := run_of_transcript hoptions hinit ht
  have hwritten := (Run.endsIn_written_events (settings options tree).verbose
    (settings options tree) (Project.found (settings options tree) tree) t).prepend
    (opening (settings options tree)).out
  generalize (opening (settings options tree)).out ++ Run.written _ _ = before at hout hwritten
  rcases t.result_cases ht with ⟨hstops, e, he⟩ | ⟨hloaded, summary, hsummary, hcount⟩
  · -- the output breaks off after the events
    have hnothing : (ending (settings options tree) (.error e)).2.out = [] := rfl
    rw [he, hnothing, List.append_nil] at hout
    rw [he] at hexit
    refine .of_failure hstops hexit fun n => ?_
    rw [hout]
    exact hwritten.not_endsWithLine (lastChar_allCoveredLine n) (by decide)
  · rw [hsummary, exit_ending_ok] at hexit
    rw [hsummary, out_ending_ok] at hout
    refine .of_finished hloaded hcount hexit ?_
    rw [hout]
    by_cases hzero : summary.notFullyCovered = 0
    · rw [Console.out_summary_of_eq_zero hzero]
      exact iff_of_true ⟨_, _, rfl⟩ hzero
    · -- the last line is that of a route which is not fully covered
      have hends := (Console.endsIn_summary (settings options tree).failOnError hzero).prepend
        before
      exact iff_of_false
        (fun ⟨n, hn⟩ => hends.not_endsWithLine (lastChar_allCoveredLine n) (by decide) hn) hzero

end

/-- How a run of the command ends.  The gate is on when the arguments or a valid settings file ask
for it.  The run fails, with exit code 1, exactly if loading the trace of a named route of an
accepted file that can be read fails; it is refused, with exit code 2, exactly if it does not fail,
the gate is on, and such a route has a trace and a step without a hit; and its output closes with
the line that all reports are fully covered exactly if it does not fail and there is no such step.
The traces are those that were loaded while the log of the run grew; if the log lies apart from
the files that are read, they are those of the project.  All of this is said for every parser of
source text and every dialect of patterns: they decide which files can be read and are accepted. -/
theorem run_decides [Dialect] [Source.Parser] {timestamp : Nat} {arguments : List String}
    {tree : FileTree} {options : Options} (hoptions : Options.ofArguments arguments = .ok options)
    (hinit : options.init = false) :
    let s := settings options tree
    let r := run timestamp arguments tree
    (s.failOnError = true ↔ options.failOnError = true ∨
      ∃ file, SettingsFile.find tree options.basedir = some (.ok file) ∧
        file.failOnError = true) ∧
    (∃ t : Transcript,
      t.Of s (Project.found s tree) (Project.sources s timestamp tree) ∧
      Decides s.failOnError (∃ l ∈ t.lookups, Lookup.Stops l.2)
        (∃ l ∈ t.lookups, l.LeavesUncovered) r) ∧
    (Project.LogApart s timestamp tree →
      Decides s.failOnError (Project.FailsToLoad s tree) (Project.LeavesUncovered s tree) r) := by
  dsimp only
  obtain ⟨t, ht⟩ := Transcript.exists_transcript (settings options tree)
    (Project.found (settings options tree) tree)
    (Project.sources (settings options tree) timestamp tree)
  have hdecides := decides_of_transcript hoptions hinit ht
  refine ⟨failOnError_settings_iff options tree, ⟨t, ht, hdecides⟩, fun hlog => ?_⟩
  exact hdecides.congr (Project.exists_stops_iff hlog ht)
    (Project.exists_leavesUncovered_iff hlog ht)

/-- A project with one route, and a dump in which its last step was not hit. -/
def halfCovered : FileTree :=
  ⟨.directory [
    ("src", .directory [("main", .directory [("java", .onlyFile "R.java"
      "void configure() \x7b from(\"a\").routeId(\"x\").to(\"b\"); \x7d")])]),
    ("target", .directory [("camel-route-coverage", .onlyFile "T.xml"
      "<route id='x' exchangesTotal='1'/>")])], []⟩

def gated : Options := { Options.unset with failOnError := true }

theorem namedRoute_halfCovered_iff {id : String} {route : Route} :
    Project.NamedRoute (settings gated halfCovered) halfCovered id route ↔
      ∃ routes, routesOfFile halfCovered ⟨"./src/main/java/R.java"⟩ = .ok routes ∧
        route ∈ routes ∧ route.id = some id := by
  have hsource := FileTree.find_eq_ok_iff.mpr ⟨["src", "main", "java"],
    (by decide +kernel : halfCovered.resolve ⟨"./src/main/java"⟩ = .ok ["src", "main", "java"]),
    rfl⟩
  have hroots : (settings gated halfCovered).layout.source = [⟨"./src/main/java"⟩] ∧
      (settings gated halfCovered).includeTest = false := by decide +kernel
  have hfound : (Project.found (settings gated halfCovered) halfCovered).java =
      [⟨"./src/main/java/R.java"⟩] := by
    have hfiles := filesOfRoot_onlyFile hsource (by decide +kernel : hasExtension "java" "R.java")
    unfold Project.found discover
    rw [hroots.1, hroots.2]
    dsimp only
    rw [if_neg Bool.false_ne_true, findFiles, List.flatMap_singleton, hfiles]
    decide +kernel
  have haccepts : (settings gated halfCovered).fileFilter.accepts
      ⟨"./src/main/java/R.java"⟩ = true := by decide +kernel
  unfold Project.NamedRoute
  rw [hfound]
  simp [haccepts]

theorem exists_route_halfCovered :
    ∃ route, routesOfFile halfCovered ⟨"./src/main/java/R.java"⟩ = .ok [route] ∧
      route.id = some "x" ∧
        ∃ e ∈ aggregate route.root [⟨"from", .ofNat 1⟩], e.hits.count = 0 := by
  have hread : (routesOfFile halfCovered ⟨"./src/main/java/R.java"⟩).toOption.map
      (List.map fun r => (r.id, (aggregate r.root [⟨"from", .ofNat 1⟩]).any (·.hits.count = 0))) =
        some [(some "x", true)] := by decide +kernel
  cases hroutes : routesOfFile halfCovered ⟨"./src/main/java/R.java"⟩ with
  | error e =>
      rw [hroutes] at hread
      cases hread
  | ok routes =>
      rw [hroutes] at hread
      obtain ⟨route, rfl, hroute⟩ := List.map_eq_singleton_iff.mp (Option.some.inj hread)
      obtain ⟨hid, hstep⟩ := Prod.mk.inj hroute
      simp only [List.any_eq_true, decide_eq_true_eq] at hstep
      exact ⟨route, rfl, hid, hstep⟩

theorem load_halfCovered :
    DumpDirectory.load halfCovered (settings gated halfCovered).resolvedDumpDir "x" =
      .ok [⟨"from", .ofNat 1⟩] := by
  have hdir : (settings gated halfCovered).resolvedDumpDir =
      ⟨"./target/camel-route-coverage"⟩ := by decide +kernel
  have hdumps := FileTree.find_eq_ok_iff.mpr ⟨["target", "camel-route-coverage"],
    (by decide +kernel : halfCovered.resolve ⟨"./target/camel-route-coverage"⟩ =
      .ok ["target", "camel-route-coverage"]), rfl⟩
  have hfiles := DumpDirectory.files_onlyFile hdumps (by decide +kernel)
  rw [hdir, DumpDirectory.load, hfiles]
  decide +kernel

/-- The gate refuses the half covered route. -/
theorem run_halfCovered :
    Options.ofArguments ["--fail-on-error"] = .ok gated ∧ gated.init = false ∧
      Project.LogApart (settings gated halfCovered) 0 halfCovered ∧
      ¬ Project.FailsToLoad (settings gated halfCovered) halfCovered ∧
      Project.LeavesUncovered (settings gated halfCovered) halfCovered ∧
      (run 0 ["--fail-on-error"] halfCovered).exit = 2 ∧
      ¬ ∃ n, EndsWithLine (run 0 ["--fail-on-error"] halfCovered).out (allCoveredLine n) := by
  have hoptions : Options.ofArguments ["--fail-on-error"] = .ok gated := by decide +kernel
  have hgate : (settings gated halfCovered).failOnError = true := by decide +kernel
  have hlog : Project.LogApart (settings gated halfCovered) 0 halfCovered :=
    Project.logApart_of_eventLog_eq_none (by decide +kernel)
  obtain ⟨route, hroutes, hid, hstep⟩ := exists_route_halfCovered
  have huncovered : Project.LeavesUncovered (settings gated halfCovered) halfCovered :=
    ⟨"x", route, namedRoute_halfCovered_iff.mpr ⟨_, hroutes, List.mem_singleton_self _, hid⟩,
      _, load_halfCovered, List.cons_ne_nil _ _, hstep⟩
  have hloaded : ¬ Project.FailsToLoad (settings gated halfCovered) halfCovered := by
    rintro ⟨id, route', hnamed, e, he⟩
    obtain ⟨routes, hroutes', hroute, hid'⟩ := namedRoute_halfCovered_iff.mp hnamed
    obtain rfl : [route] = routes := Except.ok.inj (hroutes.symm.trans hroutes')
    obtain rfl := List.mem_singleton.mp hroute
    obtain rfl : "x" = id := Option.some.inj (hid.symm.trans hid')
    rw [load_halfCovered] at he
    cases he
  obtain ⟨-, -, happly⟩ := @run_decides _ _ 0 ["--fail-on-error"] halfCovered gated hoptions rfl
  have hdecides := happly hlog
  exact ⟨hoptions, rfl, hlog, hloaded, huncovered,
    hdecides.refused.mpr ⟨hloaded, hgate, huncovered⟩,
    fun hcloses => (hdecides.closing.mp hcloses).2 huncovered⟩

end Command

end RouteCoverage
