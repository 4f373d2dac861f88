import RouteCoverage.Proofs.Command.Exit
import RouteCoverage.Proofs.Report.Reading

/-!
# What is measured depends neither on verbosity nor on the gate

The wish for more messages and the gate are looked at only where something is written and where
the command ends.  So two runs whose settings differ in one of them go through the same events
(`Project.outcome_eq_of_timesAside`), and what they write and how they end differ as little as
this allows (`Command.runWith_agree`).
-/

namespace RouteCoverage

/-! ### Messages and lines -/

namespace Listing

theorem linesOf_unlines_eq_flatMap (messages : List String) :
    linesOf (unlines messages) = messages.flatMap fun m => splitAt '\n' m.toList := by
  unfold linesOf
  rw [toList_unlines]
  induction messages with
  | nil => rfl
  | cons m messages ih =>
      rw [List.flatMap_cons, List.append_assoc, List.singleton_append, splitAt_append_cons,
        List.dropLast_append_of_ne_nil (splitAt_ne_nil _ _), ih, List.flatMap_cons]

theorem sublist_linesOf {few many : List String} (h : few.Sublist many) :
    (linesOf (unlines few)).Sublist (linesOf (unlines many)) := by
  rw [linesOf_unlines_eq_flatMap, linesOf_unlines_eq_flatMap]
  induction h with
  | slnil => exact List.Sublist.refl _
  | cons m _ ih => exact ih.trans (List.sublist_append_right _ _)
  | cons_cons m _ ih => exact (List.Sublist.refl _).append ih

end Listing

namespace Console

theorem err_append (a b : Console) : (a ++ b).err = a.err ++ b.err := rfl

theorem err_event (v w : Bool) (e : Event) : (event v e).err = (event w e).err := by
  cases v <;> cases w <;> cases e <;> rfl

theorem sublist_out_event (e : Event) : (event false e).out.Sublist (event true e).out := by
  cases e
  case filesDiscovered => exact List.nil_sublist _
  case fileSkipped => exact List.nil_sublist _
  case xmlUnsupported => exact List.nil_sublist _
  all_goals exact List.Sublist.refl _

theorem err_all_event (v w : Bool) (events : List Event) :
    (all (events.map (event v))).err = (all (events.map (event w))).err := by
  unfold all
  dsimp only
  rw [List.flatMap_map, List.flatMap_map]
  exact congrArg (List.flatMap · events) (funext fun e => err_event v w e)

theorem sublist_out_all_event (events : List Event) :
    (all (events.map (event false))).out.Sublist (all (events.map (event true))).out := by
  unfold all
  induction events with
  | nil => exact List.Sublist.refl _
  | cons e events ih => exact (sublist_out_event e).append ih

end Console

/-! ### Runs from sources that agree -/

namespace Run

variable {a b : Sources}

theorem readRoutes_congr {files : List Path}
    (h : ∀ history, ∀ file ∈ files, a.routes history file = b.routes history file)
    (history : List Event) : readRoutes a history files = readRoutes b history files := by
  induction files generalizing history with
  | nil => rfl
  | cons file files ih =>
      have hfiles : ∀ history, ∀ file ∈ files, a.routes history file = b.routes history file :=
        fun history f hf => h history f (List.mem_cons_of_mem file hf)
      rw [readRoutes, readRoutes, h history file List.mem_cons_self]
      cases b.routes history file with
      | ok routes =>
          dsimp only
          rw [ih hfiles]
      | error e =>
          dsimp only
          rw [ih hfiles]

theorem coverAll_congr (h : a.trace = b.trace) (basedir : Path) (routes : List (String × Route))
    (history : List Event) :
    coverAll a basedir history routes = coverAll b basedir history routes := by
  induction routes generalizing history with
  | nil => rfl
  | cons first routes ih =>
      obtain ⟨id, route⟩ := first
      have hroute :
          coverRoute a basedir history id route = coverRoute b basedir history id route := by
        rw [coverRoute, coverRoute, h]
      rw [coverAll, coverAll, hroute]
      split
      · rfl
      · rw [ih]

/-- A run asks its sources for nothing but the routes of the files found, and for traces. -/
theorem run_congr [Dialect] {settings : Settings} {found : Discovered}
    (hroutes : ∀ history, ∀ file ∈ found.java, a.routes history file = b.routes history file)
    (htrace : a.trace = b.trace) : run settings found a = run settings found b := by
  have hfiltered : ∀ history, ∀ file ∈ settings.fileFilter.filter found.java,
      a.routes history file = b.routes history file :=
    fun history file hfile => hroutes history file (List.mem_filter.mp hfile).1
  unfold run
  dsimp only
  rw [readRoutes_congr hfiltered, coverAll_congr htrace]

end Run

namespace Project

variable [Source.Parser]

/-- What comes of a run on the files of a tree: the events in order, and the summary or the
failure. -/
def outcome [Dialect] (settings : Settings) (timestamp : Nat) (tree : FileTree) :
    List Event × Except RunError Summary :=
  Run.run settings (found settings tree) (sources settings timestamp tree)

/-- The times that a log holds make no difference to what two runs read from it. -/
structure TimesAside (settings : Settings) (t₁ t₂ : Nat) (tree : FileTree) : Prop where
  routes : ∀ events, ∀ file ∈ (found settings tree).java,
    routesOfFile (logged settings t₁ tree events) file =
      routesOfFile (logged settings t₂ tree events) file
  traces : ∀ events id,
    DumpDirectory.load (logged settings t₁ tree events) settings.resolvedDumpDir id =
      DumpDirectory.load (logged settings t₂ tree events) settings.resolvedDumpDir id

section

variable {settings : Settings} {t₁ t₂ : Nat} {tree : FileTree}

/-- Runs at the same time read the same. -/
theorem TimesAside.refl : TimesAside settings t₁ t₁ tree :=
  ⟨fun _ _ _ => rfl, fun _ _ => rfl⟩

/-- Runs that do not read their log read the same at any times. -/
theorem timesAside_of_logApart (h₁ : LogApart settings t₁ tree) (h₂ : LogApart settings t₂ tree) :
    TimesAside settings t₁ t₂ tree :=
  ⟨fun events file hfile => (h₁.routes events file hfile).trans (h₂.routes events file hfile).symm,
    fun events id => (h₁.traces events id).trans (h₂.traces events id).symm⟩

theorem outcome_eq_of_timesAside [Dialect] (h : TimesAside settings t₁ t₂ tree) :
    outcome settings t₁ tree = outcome settings t₂ tree :=
  Run.run_congr h.routes (funext fun events => funext fun id => h.traces events id)

end

/-! Neither the wish for more messages nor the gate has a part in what comes of a run. -/

variable [Dialect]

theorem outcome_with_verbose (s : Settings) (v : Bool) (timestamp : Nat) (tree : FileTree) :
    outcome { s with verbose := v } timestamp tree = outcome s timestamp tree := by
  unfold outcome
  rfl

theorem outcome_with_failOnError (s : Settings) (v : Bool) (timestamp : Nat) (tree : FileTree) :
    outcome { s with failOnError := v } timestamp tree = outcome s timestamp tree := by
  unfold outcome
  rfl

end Project

/-! ### Two runs of the command -/

namespace Command

open CommandLine (Options)

/-- Runs on a project with the settings in force, and warns if its settings file is ignored. -/
def runWith [Dialect] [Source.Parser] (s : Settings) (timestamp : Nat) (tree : FileTree) : Result :=
  let (code, console, tree') := report s timestamp tree
  result code (settingsWarning tree s.layout.basedir ++ console) tree'

theorem basedir_settings (options : Options) (tree : FileTree) :
    (settings options tree).layout.basedir = options.basedir := by
  have hlayout : (settings options tree).layout = (Settings.load tree options.basedir).layout := rfl
  rw [hlayout, Settings.load]
  split <;> rfl

/-- The command runs with the settings in force. -/
theorem run_eq_runWith [Dialect] [Source.Parser] {arguments : List String} {options : Options}
    (hoptions : Options.ofArguments arguments = .ok options) (hinit : options.init = false)
    (timestamp : Nat) (tree : FileTree) :
    run timestamp arguments tree = runWith (settings options tree) timestamp tree := by
  unfold run runWith
  rw [hoptions, basedir_settings]
  dsimp only
  rw [hinit, if_neg Bool.false_ne_true]

/-- A run goes through these events, in order, and logs them with its time. -/
def Logs [Dialect] [Source.Parser] (s : Settings) (timestamp : Nat) (tree : FileTree)
    (events : List Event) : Prop :=
  (Project.outcome s timestamp tree).1 = events ∧
    (runWith s timestamp tree).tree = Project.logged s timestamp tree events

/-- A quiet run and one with more messages end alike and warn alike, and the lines of the quiet one
are among those of the other, in order. -/
structure QuietOf (quiet loud : Result) : Prop where
  exit : quiet.exit = loud.exit
  err : quiet.err = loud.err
  out : (Listing.linesOf quiet.out).Sublist (Listing.linesOf loud.out)

/-- What a run without the gate and one with it have in common. -/
inductive AlikeUpToClosing (lax gated : Result) : Prop
  /-- both break off alike -/
  | aborted (exit : lax.exit = 1 ∧ gated.exit = 1) (out : lax.out = gated.out)
      (err : lax.err = gated.err)
  /-- both finish; the outputs are alike but for the mark of the closing line, and the gate may
  refuse what passes without it -/
  | finished (before after : List String) (summary : Summary)
      (lax_out : lax.out = unlines (before ++ Console.closing false summary :: after))
      (gated_out : gated.out = unlines (before ++ Console.closing true summary :: after))
      (exit : lax.exit = gated.exit ∨ lax.exit = 0 ∧ gated.exit = 2)

theorem out_opening_quiet (s : Settings) : (opening { s with verbose := false }).out = [] := by
  unfold opening
  rw [Console.out_append]
  dsimp only
  split <;> rfl

theorem err_opening (s : Settings) : (opening s).err = [] := by
  have hdetail (v : Bool) (line : String) : (Console.detail v line).err = [] := by cases v <;> rfl
  unfold opening
  rw [Console.err_append, hdetail]
  split
  · exact hdetail _ _
  · rfl

section

variable [Dialect] [Source.Parser] (s : Settings) (timestamp : Nat) (tree : FileTree)

/-! What a run writes and how it ends, by what comes of it. -/

theorem exit_runWith : (runWith s timestamp tree).exit =
    (ending s (Project.outcome s timestamp tree).2).1.toNat := rfl

theorem out_runWith : (runWith s timestamp tree).out =
    unlines ((opening s).out ++ Run.written s.verbose (Project.outcome s timestamp tree).1 ++
      (ending s (Project.outcome s timestamp tree).2).2.out) := by
  have hout : (runWith s timestamp tree).out =
      unlines ((settingsWarning tree s.layout.basedir).out ++ ((opening s).out ++
        Run.written s.verbose (Project.outcome s timestamp tree).1 ++
          (ending s (Project.outcome s timestamp tree).2).2.out)) := rfl
  rw [hout, out_settingsWarning, List.nil_append]

theorem err_runWith : (runWith s timestamp tree).err =
    unlines ((settingsWarning tree s.layout.basedir).err ++
      ((Console.all ((Project.outcome s timestamp tree).1.map (Console.event s.verbose))).err ++
        (ending s (Project.outcome s timestamp tree).2).2.err)) := by
  have herr : (runWith s timestamp tree).err =
      unlines ((settingsWarning tree s.layout.basedir).err ++ ((opening s).err ++
        (Console.all ((Project.outcome s timestamp tree).1.map (Console.event s.verbose))).err ++
          (ending s (Project.outcome s timestamp tree).2).2.err)) := rfl
  rw [herr, err_opening, List.nil_append]

theorem tree_runWith : (runWith s timestamp tree).tree =
    Project.logged s timestamp tree (Project.outcome s timestamp tree).1 := rfl

end

section

variable [Dialect] [Source.Parser] {s : Settings} {t₁ t₂ : Nat} {tree : FileTree}

theorem quietOf_runWith (h : Project.TimesAside s t₁ t₂ tree) :
    QuietOf (runWith { s with verbose := false } t₁ tree)
      (runWith { s with verbose := true } t₂ tree) := by
  have hquiet := (Project.outcome_with_verbose s false t₁ tree).trans
    (Project.outcome_eq_of_timesAside h)
  have hloud := Project.outcome_with_verbose s true t₂ tree
  constructor
  · rw [exit_runWith, exit_runWith, hquiet, hloud]
    rfl
  · rw [err_runWith, err_runWith, hquiet, hloud, Console.err_all_event false true]
    rfl
  · rw [out_runWith, out_runWith, hquiet, hloud, out_opening_quiet]
    refine Listing.sublist_linesOf (List.Sublist.append ?_ (List.Sublist.refl _))
    exact (List.nil_sublist _).append (Console.sublist_out_all_event _)

theorem alikeUpToClosing_runWith (h : Project.TimesAside s t₁ t₂ tree) :
    AlikeUpToClosing (runWith { s with failOnError := false } t₁ tree)
      (runWith { s with failOnError := true } t₂ tree) := by
  have hlax := (Project.outcome_with_failOnError s false t₁ tree).trans
    (Project.outcome_eq_of_timesAside h)
  have hgated := Project.outcome_with_failOnError s true t₂ tree
  cases hlast : (Project.outcome s t₂ tree).2 with
  | error e =>
      refine .aborted ⟨?_, ?_⟩ ?_ ?_
      · rw [exit_runWith, hlax, hlast]
        rfl
      · rw [exit_runWith, hgated, hlast]
        rfl
      · rw [out_runWith, out_runWith, hlax, hgated, hlast]
        rfl
      · rw [err_runWith, err_runWith, hlax, hgated, hlast]
        rfl
  | ok summary =>
      refine .finished ((opening s).out ++ Run.written s.verbose (Project.outcome s t₂ tree).1)
        ((summary.reports.filter fun r => !r.report.isFullyCovered).map Console.shortfall)
        summary ?_ ?_ ?_
      · rw [out_runWith, hlax, hlast, out_ending_ok]
        rfl
      · rw [out_runWith, hgated, hlast, out_ending_ok]
        rfl
      · rw [exit_runWith, exit_runWith, hlax, hgated, hlast, exit_ending_ok, exit_ending_ok]
        by_cases hcovered : summary.notFullyCovered = 0
        · exact .inl (by simp [hcovered])
        · exact .inr (by simp [hcovered])

end

/-- Neither the wish for more messages nor the gate changes what is measured.  Two runs on a
project whose settings differ only in the wish for more messages go through the same events and log
them alike but for the time, end alike, write the same warnings and errors, and the lines of the
quiet one are among those of the other.  If the settings differ only in the gate, the runs go
through the same events, too; they break off alike, or write the same up to the mark of the closing
line, and the gate may refuse what passes without it.  What the command runs with are its settings
in force. -/
theorem runWith_agree [Dialect] [Source.Parser] {s : Settings} {t₁ t₂ : Nat} {tree : FileTree}
    (htimes : Project.TimesAside s t₁ t₂ tree) :
    let quiet := { s with verbose := false }
    let loud := { s with verbose := true }
    let lax := { s with failOnError := false }
    let gated := { s with failOnError := true }
    (∃ events, Logs quiet t₁ tree events ∧ Logs loud t₂ tree events) ∧
      QuietOf (runWith quiet t₁ tree) (runWith loud t₂ tree) ∧
      (∃ events, Logs lax t₁ tree events ∧ Logs gated t₂ tree events) ∧
      AlikeUpToClosing (runWith lax t₁ tree) (runWith gated t₂ tree) ∧
      ∀ (arguments : List String) (options : Options) (timestamp : Nat) (tree : FileTree),
        Options.ofArguments arguments = .ok options → options.init = false →
          run timestamp arguments tree = runWith (settings options tree) timestamp tree := by
  have hevents : (Project.outcome s t₁ tree).1 = (Project.outcome s t₂ tree).1 := by
    rw [Project.outcome_eq_of_timesAside htimes]
  exact ⟨⟨_, ⟨hevents, tree_runWith _ _ _ |>.trans (congrArg _ hevents)⟩, rfl, rfl⟩,
    quietOf_runWith htimes,
    ⟨_, ⟨hevents, tree_runWith _ _ _ |>.trans (congrArg _ hevents)⟩, rfl, rfl⟩,
    alikeUpToClosing_runWith htimes,
    fun _ _ timestamp tree hoptions hinit => run_eq_runWith hoptions hinit timestamp tree⟩

/-- Two runs on the half covered project at different times, and two that keep a log. -/
theorem runWith_agree_halfCovered :
    let s := settings gated halfCovered
    let logging := { s with eventLog := some ⟨"log.jsonl"⟩ }
    Project.TimesAside s 0 7 halfCovered ∧
      QuietOf (runWith { s with verbose := false } 0 halfCovered)
        (runWith { s with verbose := true } 7 halfCovered) ∧
      AlikeUpToClosing (runWith { s with failOnError := false } 0 halfCovered)
        (runWith { s with failOnError := true } 7 halfCovered) ∧
      ∃ events, Logs { logging with failOnError := false } 5 halfCovered events ∧
        Logs { logging with failOnError := true } 5 halfCovered events := by
  have hnone : (settings gated halfCovered).eventLog = none := by decide +kernel
  have htimes : Project.TimesAside (settings gated halfCovered) 0 7 halfCovered :=
    Project.timesAside_of_logApart (Project.logApart_of_eventLog_eq_none hnone)
      (Project.logApart_of_eventLog_eq_none hnone)
  obtain ⟨-, hquiet, -, hgate, -⟩ := runWith_agree htimes
  obtain ⟨-, -, hlogs, -⟩ := @runWith_agree _ _
    { settings gated halfCovered with eventLog := some ⟨"log.jsonl"⟩ } 5 5 halfCovered
    Project.TimesAside.refl
  exact ⟨htimes, hquiet, hgate, hlogs⟩

end Command

end RouteCoverage
