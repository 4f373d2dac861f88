import RouteCoverage.Run

/-!
# What a run asks and what it is answered

A run asks its sources for the routes of every accepted file, and then for the trace of every
named route until one cannot be read.  The answers may depend on the events reported before the
question, so both passes thread the events.  `Dialogue` says what such a pass is without a
recursion: the questions are asked in order, every answer is the one given after the events of
the answers before it, and only the last answer may stop the pass.

`Transcript.Of` says that a transcript holds the questions and answers of a run.  There is one for
every run (`exists_transcript`), and the run is read off it (`run_eq_of_transcript`): its events
are those of the answers in their places, and its result is the first failure or the summary.
-/

namespace RouteCoverage

/-! ### Kinds of events -/

namespace Event

/-- Whether an event tells that the routes of a file cannot be read. -/
def isParseFailed : Event → Bool
  | parseFailed .. => true
  | _ => false

/-- Whether an event tells that nothing was recorded for a route. -/
def isTraceMissing : Event → Bool
  | traceMissing .. => true
  | _ => false

def isRouteCovered : Event → Bool
  | routeCovered .. => true
  | _ => false

/-- Whether an event tells that a trace cannot be read. -/
def isTraceFailed : Event → Bool
  | traceFailed .. => true
  | _ => false

/-- Whether an event tells what came of a route. -/
def aboutRoute (e : Event) : Bool := e.isTraceMissing || e.isRouteCovered || e.isTraceFailed

end Event

namespace Run

/-! ### Questions asked one after another -/

/-- Questions from the front of `questions` with their answers.  An answer may depend on the
events so far; `tell` gives the events that are reported for an answer, and after an answer
that `stops` nothing more is asked. -/
structure Dialogue {κ α : Type} (answer : List Event → κ → α) (tell : κ × α → List Event)
    (stops : α → Prop) (history : List Event) (questions : List κ) (asked : List (κ × α)) :
    Prop where
  /-- questions are asked in order, and none is left out -/
  order : asked.map Prod.fst <+: questions
  /-- an answer is given after the events of the answers before it -/
  answered : ∀ (i : Nat) (p : κ × α), asked[i]? = some p →
    p.2 = answer (history ++ (asked.take i).flatMap tell) p.1
  /-- only the last answer may stop -/
  goes_on : ∀ p ∈ asked.dropLast, ¬ stops p.2
  /-- without an answer that stops, every question is asked -/
  complete : (∀ p ∈ asked, ¬ stops p.2) → asked.map Prod.fst = questions

namespace Dialogue

variable {κ α : Type} {answer : List Event → κ → α} {tell : κ × α → List Event}
  {stops : α → Prop} {history : List Event} {q : κ} {questions : List κ}

/-- Without questions nothing is asked. -/
theorem nil : Dialogue answer tell stops history [] [] := by
  constructor <;> simp

theorem stop (h : stops (answer history q)) :
    Dialogue answer tell stops history (q :: questions) [(q, answer history q)] where
  order := ⟨questions, rfl⟩
  answered := by
    intro i p hp
    cases i with
    | zero =>
        cases hp
        simp
    | succ i => simp at hp
  goes_on := by simp
  complete := fun hall => absurd h (hall _ List.mem_cons_self)

theorem cons {asked : List (κ × α)} (h : ¬ stops (answer history q))
    (hrest : Dialogue answer tell stops (history ++ tell (q, answer history q)) questions asked) :
    Dialogue answer tell stops history (q :: questions) ((q, answer history q) :: asked) where
  order := List.cons_prefix_cons.mpr ⟨rfl, hrest.order⟩
  answered := by
    intro i p hp
    cases i with
    | zero =>
        cases hp
        simp
    | succ i =>
        -- the events told for `q` stand before all that the rest was told
        rw [hrest.answered i p hp, List.take_succ_cons, List.flatMap_cons, List.append_assoc]
  goes_on := by
    intro p hp
    cases asked with
    | nil => cases hp
    | cons next asked =>
        rcases List.mem_cons.mp hp with rfl | hp
        · exact h
        · exact hrest.goes_on p hp
  complete := by
    intro hall
    rw [List.map_cons, hrest.complete fun p hp => hall p (List.mem_cons_of_mem _ hp)]

theorem exists_dialogue (questions : List κ) : ∀ history : List Event,
    ∃ asked, Dialogue answer tell stops history questions asked := by
  induction questions with
  | nil => exact fun history => ⟨[], nil⟩
  | cons q questions ih =>
      intro history
      by_cases h : stops (answer history q)
      · exact ⟨_, stop h⟩
      · obtain ⟨asked, hasked⟩ := ih (history ++ tell (q, answer history q))
        exact ⟨_, cons h hasked⟩

theorem eq_nil {asked : List (κ × α)} (h : Dialogue answer tell stops history [] asked) :
    asked = [] :=
  List.map_eq_nil_iff.mp (List.prefix_nil.mp h.order)

/-- The first question of a dialogue is answered first; if the answer stops, nothing follows, and
else the rest is a dialogue after its events. -/
theorem of_cons {asked : List (κ × α)}
    (h : Dialogue answer tell stops history (q :: questions) asked) :
    ∃ rest, asked = (q, answer history q) :: rest ∧
      (stops (answer history q) → rest = []) ∧
      (¬ stops (answer history q) →
        Dialogue answer tell stops (history ++ tell (q, answer history q)) questions rest) := by
  cases asked with
  | nil =>
      have hall := h.complete (by simp)
      cases hall
  | cons first rest =>
      obtain ⟨q', a⟩ := first
      have ha := h.answered 0 _ rfl
      obtain ⟨hq, horder⟩ := List.cons_prefix_cons.mp h.order
      -- nothing was told before the first answer, so its history is the one at the start
      dsimp only at hq
      subst hq
      rw [List.take_zero, List.flatMap_nil, List.append_nil] at ha
      dsimp only at ha
      subst ha
      refine ⟨rest, rfl, fun hstops => ?_, fun hstops => ⟨horder, ?_, ?_, ?_⟩⟩
      · cases rest with
        | nil => rfl
        | cons next rest => exact absurd hstops (h.goes_on _ List.mem_cons_self)
      · intro i p hp
        have hanswer := h.answered (i + 1) p hp
        rw [List.take_succ_cons, List.flatMap_cons, ← List.append_assoc] at hanswer
        exact hanswer
      · intro p hp
        cases rest with
        | nil => cases hp
        | cons next rest => exact h.goes_on p (List.mem_cons_of_mem _ hp)
      · intro hall
        have hcomplete := h.complete fun p hp => by
          rcases List.mem_cons.mp hp with rfl | hp
          · exact hstops
          · exact hall p hp
        exact (List.cons_eq_cons.mp hcomplete).2

/-- Every answer is the one given after the events of some of the answers. -/
theorem exists_answered {asked : List (κ × α)}
    (h : Dialogue answer tell stops history questions asked) {p : κ × α} (hp : p ∈ asked) :
    ∃ before, p.2 = answer (history ++ before) p.1 := by
  obtain ⟨i, hi⟩ := List.mem_iff_getElem?.mp hp
  exact ⟨_, h.answered i p hi⟩

/-- A dialogue goes through all questions, or ends with the first answer that stops. -/
theorem complete_or_stopped {asked : List (κ × α)}
    (h : Dialogue answer tell stops history questions asked) :
    ((∀ p ∈ asked, ¬ stops p.2) ∧ asked.map Prod.fst = questions) ∨
      ∃ earlier p, asked = earlier ++ [p] ∧ (∀ p' ∈ earlier, ¬ stops p'.2) ∧ stops p.2 := by
  by_cases hall : ∀ p ∈ asked, ¬ stops p.2
  · exact .inl ⟨hall, h.complete hall⟩
  · right
    have hgoes := h.goes_on
    rcases List.eq_nil_or_concat asked with rfl | ⟨earlier, last, rfl⟩
    · simp at hall
    · rw [List.concat_eq_append] at hall hgoes ⊢
      rw [List.dropLast_concat] at hgoes
      refine ⟨earlier, last, rfl, hgoes, Classical.byContradiction fun hlast => ?_⟩
      refine hall fun p hp => ?_
      rcases List.mem_append.mp hp with hp | hp
      · exact hgoes p hp
      · obtain rfl := List.mem_singleton.mp hp
        exact hlast

end Dialogue

/-! ### The two passes of a run -/

/-- A file that was read, with the answer. -/
abbrev FileRead := Path × Except SourceError (List Route)

namespace FileRead

/-- A file whose routes cannot be read is reported. -/
def events : FileRead → List Event
  | (file, .error e) => [.parseFailed file.text e.message]
  | (_, .ok _) => []

/-- The routes of a file; a file whose routes cannot be read has none. -/
def routes : FileRead → List Route
  | (_, .error _) => []
  | (_, .ok routes) => routes

end FileRead

/-- A named route whose trace was looked up, with the answer. -/
abbrev Lookup := (String × Route) × Except TraceError Trace

namespace Lookup

/-- What is reported for a route: a trace that cannot be read, that nothing was recorded, or the
coverage of the route. -/
def event (basedir : Path) : Lookup → Event
  | ((id, _), .error e) => .traceFailed id e.message
  | ((id, _), .ok []) => .traceMissing id
  | ((id, route), .ok trace) => coveredEvent (report basedir id route trace)

def outcome (basedir : Path) : Lookup → Except RunError Outcome
  | ((id, _), .error e) => .error ⟨id, e⟩
  | ((id, _), .ok []) => .ok (.missing id)
  | ((id, route), .ok trace) => .ok (.reported (report basedir id route trace))

/-- A trace that cannot be read stops a run. -/
def Stops (answer : Except TraceError Trace) : Prop := ∃ e, answer = .error e

theorem not_stops_iff {answer : Except TraceError Trace} :
    ¬ Stops answer ↔ ∃ trace, answer = .ok trace := by
  cases answer with
  | ok trace => exact ⟨fun _ => ⟨trace, rfl⟩, fun _ ⟨_, he⟩ => nomatch he⟩
  | error e => exact ⟨fun h => absurd ⟨e, rfl⟩ h, fun ⟨_, htrace⟩ => nomatch htrace⟩

end Lookup

/-- The files read by `sources` after the events of `history`. -/
abbrev Reading (sources : Sources) (history : List Event) (files : List Path)
    (reads : List FileRead) : Prop :=
  Dialogue sources.routes FileRead.events (fun _ => False) history files reads

/-- The traces looked up in `sources` after the events of `history`. -/
abbrev LookingUp (sources : Sources) (basedir : Path) (history : List Event)
    (routes : List (String × Route)) (lookups : List Lookup) : Prop :=
  Dialogue (fun history (q : String × Route) => sources.trace history q.1)
    (fun l => [Lookup.event basedir l]) Lookup.Stops history routes lookups

/-- Reading files reports the failures and collects the routes. -/
theorem readRoutes_eq {sources : Sources} {files : List Path} :
    ∀ {history : List Event} {reads : List FileRead}, Reading sources history files reads →
      readRoutes sources history files =
        (reads.flatMap FileRead.events, reads.flatMap FileRead.routes) := by
  -- on the files, for every history: a failure is part of the history of the files after it
  induction files with
  | nil =>
      intro history reads h
      rw [h.eq_nil]
      rfl
  | cons file files ih =>
      intro history reads h
      obtain ⟨rest, rfl, -, hrest⟩ := h.of_cons
      have hnext := ih (hrest id)
      rw [readRoutes, List.flatMap_cons, List.flatMap_cons]
      cases hanswer : sources.routes history file with
      | ok routes =>
          rw [hanswer, FileRead.events, List.append_nil] at hnext
          dsimp only
          rw [hnext]
          rfl
      | error e =>
          rw [hanswer, FileRead.events] at hnext
          dsimp only
          rw [hnext]
          rfl

theorem coverRoute_eq (sources : Sources) (basedir : Path) (history : List Event) (id : String)
    (route : Route) :
    coverRoute sources basedir history id route =
      (Lookup.event basedir ((id, route), sources.trace history id),
        Lookup.outcome basedir ((id, route), sources.trace history id)) := by
  unfold coverRoute
  match sources.trace history id with
  | .error e => rfl
  | .ok [] => rfl
  | .ok (first :: rest) => rfl

theorem Lookup.stops_iff (basedir : Path) (l : Lookup) :
    Stops l.2 ↔ ∃ e, outcome basedir l = .error e := by
  obtain ⟨⟨id, route⟩, answer⟩ := l
  match answer with
  | .error e => exact ⟨fun _ => ⟨_, rfl⟩, fun _ => ⟨e, rfl⟩⟩
  | .ok [] => exact ⟨fun ⟨e, he⟩ => (nomatch he), fun ⟨e, he⟩ => (nomatch he)⟩
  | .ok (first :: rest) => exact ⟨fun ⟨e, he⟩ => (nomatch he), fun ⟨e, he⟩ => (nomatch he)⟩

/-- Comparing routes with their traces tells the events of the answers, and gives the outcomes
up to the first failure. -/
theorem coverAll_eq {sources : Sources} {basedir : Path} {routes : List (String × Route)} :
    ∀ {history : List Event} {lookups : List Lookup},
      LookingUp sources basedir history routes lookups →
        coverAll sources basedir history routes =
          (lookups.map (Lookup.event basedir), lookups.mapM (Lookup.outcome basedir)) := by
  induction routes with
  | nil =>
      intro history lookups h
      rw [h.eq_nil]
      rfl
  | cons q routes ih =>
      intro history lookups h
      obtain ⟨id, route⟩ := q
      obtain ⟨rest, rfl, hstop, hrest⟩ := h.of_cons
      rw [coverAll, coverRoute_eq, List.map_cons, List.mapM_cons]
      cases houtcome : Lookup.outcome basedir ((id, route), sources.trace history id) with
      | error e =>
          have hnil := hstop ((Lookup.stops_iff basedir _).mpr ⟨e, houtcome⟩)
          rw [hnil]
          rfl
      | ok outcome =>
          have hok : ¬ Lookup.Stops (sources.trace history id) := by
            intro hstops
            obtain ⟨e, he⟩ :=
              (Lookup.stops_iff basedir ((id, route), sources.trace history id)).mp hstops
            rw [houtcome] at he
            cases he
          have hnext := ih (hrest hok)
          dsimp only at hnext ⊢
          rw [hnext]
          dsimp only
          cases rest.mapM (Lookup.outcome basedir) <;> rfl

namespace Lookup

theorem exists_mapM_outcome (basedir : Path) {lookups : List Lookup}
    (h : ∀ l ∈ lookups, ¬ Stops l.2) :
    ∃ outcomes, lookups.mapM (outcome basedir) = .ok outcomes := by
  induction lookups with
  | nil => exact ⟨[], rfl⟩
  | cons l lookups ih =>
      obtain ⟨outcomes, houtcomes⟩ := ih fun l' hl' => h l' (List.mem_cons_of_mem l hl')
      cases houtcome : outcome basedir l with
      | error e => exact absurd ((stops_iff basedir l).mpr ⟨e, houtcome⟩) (h l List.mem_cons_self)
      | ok first =>
          refine ⟨first :: outcomes, ?_⟩
          rw [List.mapM_cons, houtcome, houtcomes]
          rfl

theorem mapM_outcome_of_stops {basedir : Path} {earlier : List Lookup} {id : String}
    {route : Route} {e : TraceError} (h : ∀ l ∈ earlier, ¬ Stops l.2) :
    (earlier ++ [((id, route), Except.error e)]).mapM (outcome basedir) = .error ⟨id, e⟩ := by
  obtain ⟨outcomes, houtcomes⟩ := exists_mapM_outcome basedir h
  rw [List.mapM_append, houtcomes]
  rfl

end Lookup

/-! ### The kinds of events that answers give -/

theorem FileRead.kinds_of_mem_events {r : FileRead} {e : Event} (h : e ∈ r.events) :
    e.isParseFailed = true ∧ e.aboutRoute = false := by
  obtain ⟨file, answer⟩ := r
  cases answer with
  | ok routes => cases h
  | error cause =>
      obtain rfl := List.mem_singleton.mp h
      exact ⟨rfl, rfl⟩

theorem Lookup.kinds_event (basedir : Path) (l : Lookup) :
    (l.event basedir).isParseFailed = false ∧ (l.event basedir).aboutRoute = true := by
  obtain ⟨⟨id, route⟩, answer⟩ := l
  match answer with
  | .error e => exact ⟨rfl, rfl⟩
  | .ok [] => exact ⟨rfl, rfl⟩
  | .ok (first :: rest) => exact ⟨rfl, rfl⟩

/-! ### Transcripts of runs -/

/-- What a run asked, with the answers: the files it read, then the traces it looked up. -/
structure Transcript where
  reads : List FileRead
  lookups : List Lookup

theorem unlessZero_length {α : Type} (event : Nat → Event) (l : List α) :
    unlessZero event l.length = if l = [] then [] else [event l.length] := by
  cases l <;> rfl

variable [Dialect]

/-- The events of a run before its first question: the files found, the files rejected, first
those of the one kind and then those of the other, and the files that nothing reads, if there
are any. -/
def opening (settings : Settings) (found : Discovered) : List Event :=
  let filter := settings.fileFilter
  let unread := found.xml.filter filter.accepts
  [.filesDiscovered found.java.length found.xml.length] ++
    ((found.java ++ found.xml).filter (!filter.accepts ·)).map
      (fun file => .fileSkipped (label settings.layout.basedir file)) ++
    (if unread = [] then [] else [.xmlUnsupported unread.length])

namespace Transcript

def routes (t : Transcript) : List Route := t.reads.flatMap FileRead.routes

/-- The routes without an id. -/
def anonymous (t : Transcript) : List Route := t.routes.filter Route.isAnonymous

variable (settings : Settings) (found : Discovered) (sources : Sources)

/-- The events of a run before its first look-up: those of its opening, the files whose routes
cannot be read, the number of routes, and that of the routes without an id, if there are any. -/
def eventsBefore (t : Transcript) : List Event :=
  opening settings found ++ t.reads.flatMap FileRead.events ++
    [.routesDiscovered t.routes.length] ++
    (if t.anonymous = [] then [] else [.anonymousRoutes t.anonymous.length])

/-- The events of a run: one for each look-up after those before. -/
def events (t : Transcript) : List Event :=
  t.eventsBefore settings found ++ t.lookups.map (Lookup.event settings.layout.basedir)

/-- The summary of a run with the given outcomes. -/
def summary (t : Transcript) (outcomes : List Outcome) : Summary where
  discovered := t.routes.length
  anonymous := t.anonymous.length
  parseFailures := (t.reads.flatMap FileRead.events).length
  missing := missing outcomes
  reports := reports outcomes

/-- The result of a run: the failure of the look-up that failed, or the summary. -/
def result (t : Transcript) : Except RunError Summary :=
  (t.lookups.mapM (Lookup.outcome settings.layout.basedir)).map t.summary

/-- The transcript of a run: the accepted files are read, and then the named routes among theirs
are looked up. -/
structure Of (t : Transcript) : Prop where
  reads : Reading sources (opening settings found) (settings.fileFilter.filter found.java) t.reads
  lookups : LookingUp sources settings.layout.basedir (t.eventsBefore settings found)
    (named t.routes) t.lookups

/-- Every run has a transcript. -/
theorem exists_transcript : ∃ t : Transcript, t.Of settings found sources := by
  obtain ⟨reads, hreads⟩ : ∃ reads, Reading sources (opening settings found)
      (settings.fileFilter.filter found.java) reads := Dialogue.exists_dialogue _ _
  let read : Transcript := ⟨reads, []⟩
  obtain ⟨lookups, hlookups⟩ : ∃ lookups, LookingUp sources settings.layout.basedir
      (read.eventsBefore settings found) (named read.routes) lookups :=
    Dialogue.exists_dialogue _ _
  exact ⟨⟨reads, lookups⟩, hreads, hlookups⟩

end Transcript

theorem opening_eq (settings : Settings) (found : Discovered) :
    opening settings found = .filesDiscovered found.java.length found.xml.length ::
      (skipped settings.fileFilter found.java ++ skipped settings.fileFilter found.xml ++
        unlessZero .xmlUnsupported (settings.fileFilter.filter found.xml).length) := by
  rw [unlessZero_length, FileFilter.filter, skipped, skipped, ← List.map_append,
    ← List.filter_append]
  rfl

/-- A run is read off its transcript. -/
theorem run_eq_of_transcript {settings : Settings} {found : Discovered} {sources : Sources}
    {t : Transcript} (h : t.Of settings found sources) :
    run settings found sources = (t.events settings found, t.result settings) := by
  have hreads := readRoutes_eq h.reads
  have hlookups := coverAll_eq h.lookups
  have hbefore : t.eventsBefore settings found =
      opening settings found ++ t.reads.flatMap FileRead.events ++
        [.routesDiscovered (t.reads.flatMap FileRead.routes).length] ++
        unlessZero .anonymousRoutes
          ((t.reads.flatMap FileRead.routes).filter Route.isAnonymous).length := by
    rw [unlessZero_length]
    rfl
  rw [hbefore, Transcript.routes] at hlookups
  rw [Transcript.events, hbefore, Transcript.result]
  rw [opening_eq] at hreads hlookups ⊢
  unfold run
  dsimp only
  rw [hreads]
  dsimp only
  rw [hlookups]
  rfl

/-! ### Where the kinds of events stand -/

theorem kinds_of_mem_opening {settings : Settings} {found : Discovered} {e : Event}
    (h : e ∈ opening settings found) : e.isParseFailed = false ∧ e.aboutRoute = false := by
  unfold opening at h
  simp only [List.mem_append, List.mem_singleton] at h
  rcases h with (rfl | h) | h
  · exact ⟨rfl, rfl⟩
  · obtain ⟨file, -, rfl⟩ := List.mem_map.mp h
    exact ⟨rfl, rfl⟩
  · split at h
    · cases h
    · obtain rfl := List.mem_singleton.mp h
      exact ⟨rfl, rfl⟩

namespace Transcript

variable {settings : Settings} {found : Discovered} {t : Transcript}

theorem aboutRoute_of_mem_eventsBefore {e : Event} (h : e ∈ t.eventsBefore settings found) :
    e.aboutRoute = false := by
  unfold eventsBefore at h
  simp only [List.mem_append, List.mem_singleton] at h
  rcases h with ((h | h) | rfl) | h
  · exact (kinds_of_mem_opening h).2
  · obtain ⟨r, -, hr⟩ := List.mem_flatMap.mp h
    exact (FileRead.kinds_of_mem_events hr).2
  · rfl
  · split at h
    · cases h
    · obtain rfl := List.mem_singleton.mp h
      rfl

theorem filter_isParseFailed_events :
    (t.events settings found).filter Event.isParseFailed = t.reads.flatMap FileRead.events := by
  have hopening : (opening settings found).filter Event.isParseFailed = [] := by
    rw [List.filter_eq_nil_iff]
    intro e he
    rw [(kinds_of_mem_opening he).1]
    exact Bool.false_ne_true
  have hreads : (t.reads.flatMap FileRead.events).filter Event.isParseFailed =
      t.reads.flatMap FileRead.events := by
    rw [List.filter_eq_self]
    intro e he
    obtain ⟨r, -, hr⟩ := List.mem_flatMap.mp he
    exact (FileRead.kinds_of_mem_events hr).1
  have hlookups : (t.lookups.map (Lookup.event settings.layout.basedir)).filter
      Event.isParseFailed = [] := by
    rw [List.filter_eq_nil_iff]
    intro e he
    obtain ⟨l, -, rfl⟩ := List.mem_map.mp he
    rw [(Lookup.kinds_event _ l).1]
    exact Bool.false_ne_true
  have hanonymous : (if t.anonymous = [] then []
      else [Event.anonymousRoutes t.anonymous.length]).filter Event.isParseFailed = [] := by
    split <;> rfl
  rw [events, eventsBefore, List.filter_append, List.filter_append, List.filter_append,
    List.filter_append, hopening, hreads, hlookups, hanonymous]
  simp [Event.isParseFailed]

theorem filter_events_of_aboutRoute {p : Event → Bool}
    (h : ∀ e, p e = true → e.aboutRoute = true) :
    (t.events settings found).filter p =
      (t.lookups.map (Lookup.event settings.layout.basedir)).filter p := by
  have hbefore : (t.eventsBefore settings found).filter p = [] := by
    rw [List.filter_eq_nil_iff]
    intro e he hp
    have habout := aboutRoute_of_mem_eventsBefore he
    rw [h e hp] at habout
    cases habout
  rw [events, List.filter_append, hbefore, List.nil_append]

end Transcript

end Run

end RouteCoverage
