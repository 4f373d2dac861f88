import RouteCoverage.Pattern.Usual
import RouteCoverage.Proofs.Coverage.Greedy
import RouteCoverage.Proofs.Run.Transcript

/-!
# The summary of a run accounts for every route

A run that ends with a summary has loaded a trace for every named route.  The routes without an
id, the routes for which nothing was recorded and the reported routes are all routes of the files
that were read, each in one place and in order; and the numbers and lists of the summary agree
with the events of the run.  `Accounts` says this, and `accounts_of_run` proves it of every
summary.
-/

namespace RouteCoverage.Run

/-! ### Named routes with loaded traces -/

/-- A named route and the trace that was loaded for it. -/
structure Loaded where
  id : String
  route : Route
  trace : Trace

namespace Loaded

def named (l : Loaded) : String × Route := (l.id, l.route)

def lookup (l : Loaded) : Lookup := (l.named, .ok l.trace)

def report (basedir : Path) (l : Loaded) : RouteReport := Run.report basedir l.id l.route l.trace

def outcome (basedir : Path) (l : Loaded) : Outcome :=
  if l.trace.isEmpty then .missing l.id else .reported (l.report basedir)

/-- Look-ups that do not stop a run have loaded their traces. -/
theorem exists_loaded {lookups : List Lookup} (h : ∀ l ∈ lookups, ¬ Lookup.Stops l.2) :
    ∃ loaded : List Loaded, lookups = loaded.map lookup := by
  induction lookups with
  | nil => exact ⟨[], rfl⟩
  | cons l lookups ih =>
      obtain ⟨loaded, hloaded⟩ := ih fun l' hl' => h l' (List.mem_cons_of_mem l hl')
      obtain ⟨trace, htrace⟩ := Lookup.not_stops_iff.mp (h l List.mem_cons_self)
      obtain ⟨⟨id, route⟩, answer⟩ := l
      obtain rfl : answer = .ok trace := htrace
      refine ⟨⟨id, route, trace⟩ :: loaded, ?_⟩
      rw [hloaded]
      rfl

theorem outcome_lookup (basedir : Path) (l : Loaded) :
    Lookup.outcome basedir l.lookup = pure (l.outcome basedir) := by
  obtain ⟨id, route, trace⟩ := l
  cases trace <;> rfl

theorem event_lookup (basedir : Path) (l : Loaded) :
    Lookup.event basedir l.lookup =
      if l.trace.isEmpty then .traceMissing l.id else coveredEvent (l.report basedir) := by
  obtain ⟨id, route, trace⟩ := l
  cases trace <;> rfl

theorem length_entries_report (basedir : Path) (l : Loaded) :
    (l.report basedir).entries.length = l.route.root.size :=
  length_aggregate l.route.root l.trace

theorem isFullyCovered_report (basedir : Path) (l : Loaded) :
    (!(l.report basedir).report.isFullyCovered) =
      (l.report basedir).entries.any fun e => e.hits.count = 0 := by
  have hfull : (l.report basedir).report.isFullyCovered =
      (l.report basedir).entries.all Entry.isCovered := by
    rw [Bool.eq_iff_iff, List.all_eq_true]
    exact isFullyCovered_render_iff _ _ _
  rw [hfull, List.not_all_eq_any_not]
  congr 1
  funext e
  simp [Entry.isCovered, Nat.pos_iff_ne_zero]

end Loaded

/-! ### Splitting the routes -/

theorem length_anonymous_add_named (routes : List Route) :
    (routes.filter Route.isAnonymous).length + (named routes).length = routes.length := by
  induction routes with
  | nil => rfl
  | cons r routes ih =>
      unfold named at ih ⊢
      rw [List.filterMap_cons, List.length_cons, ← ih]
      cases hid : r.id with
      | none =>
          rw [List.filter_cons_of_pos (by simp [Route.isAnonymous, hid]), List.length_cons]
          simp only [Option.map_none]
          omega
      | some id =>
          rw [List.filter_cons_of_neg (by simp [Route.isAnonymous, hid])]
          simp only [Option.map_some, List.length_cons]
          omega

/-- What is selected among the outcomes of routes, when a test of the routes decides it. -/
theorem filterMap_map_outcome {β : Type} {basedir : Path} {select : Outcome → Option β}
    {test : Loaded → Bool} {value : Loaded → β}
    (h : ∀ l : Loaded, select (l.outcome basedir) = if test l then some (value l) else none)
    (loaded : List Loaded) :
    (loaded.map (Loaded.outcome basedir)).filterMap select =
      (loaded.filter test).map value := by
  induction loaded with
  | nil => rfl
  | cons l loaded ih =>
      rw [List.map_cons, List.filterMap_cons, List.filter_cons, h, ih]
      cases test l <;> rfl

theorem missing_map_outcome (basedir : Path) (loaded : List Loaded) :
    missing (loaded.map (Loaded.outcome basedir)) =
      (loaded.filter (·.trace.isEmpty)).map Loaded.id := by
  refine filterMap_map_outcome (fun l => ?_) loaded
  rw [Loaded.outcome]
  cases l.trace.isEmpty <;> rfl

theorem reports_map_outcome (basedir : Path) (loaded : List Loaded) :
    reports (loaded.map (Loaded.outcome basedir)) =
      (loaded.filter (!·.trace.isEmpty)).map (Loaded.report basedir) := by
  refine filterMap_map_outcome (fun l => ?_) loaded
  rw [Loaded.outcome]
  cases l.trace.isEmpty <;> rfl

theorem exists_of_mem_reports {basedir : Path} {loaded : List Loaded} {r : RouteReport}
    (h : r ∈ reports (loaded.map (Loaded.outcome basedir))) :
    ∃ l ∈ loaded, l.report basedir = r := by
  rw [reports_map_outcome] at h
  obtain ⟨l, hl, rfl⟩ := List.mem_map.mp h
  exact ⟨l, List.mem_of_mem_filter hl, rfl⟩

theorem filter_map_event {basedir : Path} {kind : Event → Bool} {test : Loaded → Bool}
    {told : Loaded → Event}
    (hkind : ∀ l : Loaded, kind (Lookup.event basedir l.lookup) = test l)
    (htold : ∀ l : Loaded, test l = true → Lookup.event basedir l.lookup = told l)
    (loaded : List Loaded) :
    ((loaded.map Loaded.lookup).map (Lookup.event basedir)).filter kind =
      (loaded.filter test).map told := by
  have hkinds : kind ∘ Lookup.event basedir ∘ Loaded.lookup = test := funext hkind
  rw [List.map_map, List.filter_map, hkinds]
  exact List.map_congr_left fun l hl => htold l (List.mem_filter.mp hl).2

theorem filter_isTraceMissing_map_event (basedir : Path) (loaded : List Loaded) :
    ((loaded.map Loaded.lookup).map (Lookup.event basedir)).filter Event.isTraceMissing =
      ((loaded.filter (·.trace.isEmpty)).map Loaded.id).map .traceMissing := by
  rw [List.map_map (f := Loaded.id)]
  refine filter_map_event (fun l => ?_) (fun l hempty => ?_) loaded
  · rw [Loaded.event_lookup]
    cases l.trace.isEmpty <;> rfl
  · rw [Loaded.event_lookup, if_pos hempty]
    rfl

theorem filter_isRouteCovered_map_event (basedir : Path) (loaded : List Loaded) :
    ((loaded.map Loaded.lookup).map (Lookup.event basedir)).filter Event.isRouteCovered =
      ((loaded.filter (!·.trace.isEmpty)).map (Loaded.report basedir)).map coveredEvent := by
  rw [List.map_map (f := Loaded.report basedir)]
  refine filter_map_event (fun l => ?_) (fun l hrecorded => ?_) loaded
  · rw [Loaded.event_lookup]
    cases l.trace.isEmpty <;> rfl
  · rw [Loaded.event_lookup, if_neg (by simpa using hrecorded)]
    rfl

/-! ### The summary -/

/-- A summary accounts for the routes of a run and agrees with its events: `routes` are those of
the files that were read, and `loaded` are the named ones among them, with their traces. -/
structure Accounts (basedir : Path) (events : List Event) (routes : List Route)
    (loaded : List Loaded) (s : Summary) : Prop where
  /-- every route is anonymous, without a record, or reported -/
  balance : s.discovered = s.anonymous + s.missing.length + s.reports.length
  discovered : s.discovered = routes.length
  anonymous : s.anonymous = (routes.filter (·.id.isNone)).length
  /-- the named routes are split, in order, by whether their traces are empty -/
  missing : s.missing = (loaded.filter (·.trace.isEmpty)).map Loaded.id
  reports : s.reports = (loaded.filter (!·.trace.isEmpty)).map (Loaded.report basedir)
  /-- the events of each kind are those that the summary lists or counts -/
  parseFailures : s.parseFailures = (events.filter Event.isParseFailed).length
  missingEvents : events.filter Event.isTraceMissing = s.missing.map .traceMissing
  coveredEvents : events.filter Event.isRouteCovered = s.reports.map fun r =>
    .routeCovered r.routeId r.file r.report.covered r.report.total r.report.text
  /-- the total of a report is the number of steps of its route, and of its entries -/
  total : ∀ l ∈ loaded, (l.report basedir).report.total = l.route.root.size ∧
    (l.report basedir).entries.length = l.route.root.size
  covered : ∀ r ∈ s.reports, r.report.covered = (r.entries.filter (0 < ·.hits.count)).length
  notFullyCovered : s.notFullyCovered =
    (s.reports.filter fun r => r.entries.any fun e => e.hits.count = 0).length

/-- The summary of a transcript whose look-ups loaded their traces accounts for its routes. -/
theorem Transcript.accounts [Dialect] {settings : Settings} {found : Discovered}
    {t : Transcript} {loaded : List Loaded}
    (hlookups : t.lookups = loaded.map Loaded.lookup)
    (hnamed : loaded.map Loaded.named = named t.routes) :
    Accounts settings.layout.basedir (t.events settings found) t.routes loaded
      (t.summary (loaded.map (Loaded.outcome settings.layout.basedir))) where
  balance := by
    have hlength := congrArg List.length hnamed
    rw [List.length_map] at hlength
    have hsplit := List.length_eq_length_filter_add (l := loaded) (·.trace.isEmpty)
    have hroutes := length_anonymous_add_named t.routes
    rw [Transcript.summary]
    dsimp only
    rw [missing_map_outcome, reports_map_outcome, List.length_map, List.length_map,
      Transcript.anonymous]
    omega
  discovered := rfl
  anonymous := rfl
  missing := missing_map_outcome _ _
  reports := reports_map_outcome _ _
  parseFailures := by
    rw [filter_isParseFailed_events]
    rfl
  missingEvents := by
    have habout : ∀ e : Event, e.isTraceMissing = true → e.aboutRoute = true := by
      intro e he
      rw [Event.aboutRoute, he, Bool.true_or, Bool.true_or]
    rw [filter_events_of_aboutRoute habout, hlookups, filter_isTraceMissing_map_event,
      ← missing_map_outcome settings.layout.basedir]
    rfl
  coveredEvents := by
    have habout : ∀ e : Event, e.isRouteCovered = true → e.aboutRoute = true := by
      intro e he
      rw [Event.aboutRoute, he, Bool.or_true, Bool.true_or]
    rw [filter_events_of_aboutRoute habout, hlookups, filter_isRouteCovered_map_event,
      ← reports_map_outcome]
    rfl
  total := fun l _ =>
    have hlength := l.length_entries_report settings.layout.basedir
    ⟨hlength, hlength⟩
  covered := by
    intro r hr
    obtain ⟨l, -, rfl⟩ := exists_of_mem_reports hr
    rfl
  notFullyCovered := by
    rw [Summary.notFullyCovered]
    congr 1
    refine List.filter_congr fun r hr => ?_
    obtain ⟨l, -, rfl⟩ := exists_of_mem_reports hr
    exact l.isFullyCovered_report _

/-- A run that ends with a summary has a transcript in which the trace of every named route was
loaded, and the summary accounts for the routes of the transcript. -/
theorem accounts_of_run [Dialect] {settings : Settings} {found : Discovered}
    {sources : Sources} {summary : Summary} (h : (run settings found sources).2 = .ok summary) :
    ∃ (t : Transcript) (loaded : List Loaded), t.Of settings found sources ∧
      t.reads.map Prod.fst = found.java.filter settings.fileFilter.accepts ∧
      t.lookups = loaded.map Loaded.lookup ∧ loaded.map Loaded.named = named t.routes ∧
      Accounts settings.layout.basedir (run settings found sources).1 t.routes loaded summary := by
  obtain ⟨t, ht⟩ := Transcript.exists_transcript settings found sources
  rw [run_eq_of_transcript ht] at h ⊢
  dsimp only at h ⊢
  rcases ht.lookups.complete_or_stopped with ⟨hall, hnamed⟩ | ⟨earlier, l, hl, hall, hstops⟩
  · obtain ⟨loaded, hloaded⟩ := Loaded.exists_loaded hall
    have houtcomes : t.lookups.mapM (Lookup.outcome settings.layout.basedir) =
        pure (loaded.map (Loaded.outcome settings.layout.basedir)) := by
      rw [hloaded, List.mapM_map, ← List.mapM_pure]
      exact congrArg (List.mapM · loaded) (funext (Loaded.outcome_lookup _))
    rw [Transcript.result, houtcomes] at h
    cases h
    rw [hloaded, List.map_map] at hnamed
    exact ⟨t, loaded, ht, ht.reads.complete fun _ _ => id, hloaded, hnamed,
      Transcript.accounts hloaded hnamed⟩
  · -- a look-up that stops leaves no summary
    obtain ⟨⟨id, route⟩, answer⟩ := l
    obtain ⟨e, rfl⟩ := hstops
    rw [Transcript.result, hl, Lookup.mapM_outcome_of_stops hall] at h
    cases h

/-- Two files found, of which the second cannot be read. -/
def mixedFound : Discovered := ⟨[⟨"src/A.java"⟩, ⟨"src/B.java"⟩], []⟩

/-- The first file has a route that is hit in part, one without an id, and one for which nothing
was recorded. -/
def mixedSources : Sources where
  routes _ file :=
    if file.text = "src/A.java" then
      .ok [⟨"src/A.java", some "orders", .node "from" 1 [.node "to" 2 []]⟩,
        ⟨"src/A.java", none, .node "from" 4 []⟩,
        ⟨"src/A.java", some "audit", .node "from" 6 []⟩]
    else .error ⟨file, .malformed 3⟩
  trace _ id := .ok (if id = "orders" then [⟨"from", .ofNat 1⟩] else [])

theorem accounts_of_mixedSources :
    ∃ summary, (run (.usual ⟨"."⟩) mixedFound mixedSources).2 = .ok summary ∧
      summary.discovered = 3 ∧ summary.anonymous = 1 ∧ summary.parseFailures = 1 ∧
      summary.missing = ["audit"] ∧ summary.notFullyCovered = 1 ∧
      ∃ (t : Transcript) (loaded : List Loaded), t.Of (.usual ⟨"."⟩) mixedFound mixedSources ∧
        loaded.map Loaded.named = named t.routes ∧
        Accounts ⟨"."⟩ (run (.usual ⟨"."⟩) mixedFound mixedSources).1 t.routes loaded summary := by
  obtain ⟨summary, hrun, hsummary⟩ : ∃ summary,
      (run (.usual ⟨"."⟩) mixedFound mixedSources).2 = .ok summary ∧
        (summary.discovered, summary.anonymous, summary.parseFailures, summary.missing,
          summary.notFullyCovered) = (3, 1, 1, ["audit"], 1) :=
    ⟨_, rfl, by decide +kernel⟩
  obtain ⟨t, loaded, ht, -, -, hnamed, haccounts⟩ := accounts_of_run hrun
  simp only [Prod.mk.injEq] at hsummary
  obtain ⟨hdiscovered, hanonymous, hfailures, hmissing, huncovered⟩ := hsummary
  exact ⟨summary, hrun, hdiscovered, hanonymous, hfailures, hmissing, huncovered, t, loaded, ht,
    hnamed, haccounts⟩

end RouteCoverage.Run
