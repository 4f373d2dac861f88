import RouteCoverage.Proofs.Run.Transcript

/-!
# The protocol of a run

The events of a run follow one order whatever its files, routes and traces are: what was found,
what the filter rejects, what nothing reads, what cannot be read, how many routes there are, and
one event for each route that is looked up.  The run ends with a summary after the last named
route, or with the first trace that cannot be read: then this is the last event, it is the only
one of its kind, and no later route is looked up (`run_protocol`).
-/

namespace RouteCoverage.Run

theorem Lookup.isTraceFailed_event_iff (basedir : Path) (l : Lookup) :
    (event basedir l).isTraceFailed = true ↔ Stops l.2 := by
  obtain ⟨⟨id, route⟩, answer⟩ := l
  match answer with
  | .error e => exact ⟨fun _ => ⟨e, rfl⟩, fun _ => rfl⟩
  | .ok [] => exact ⟨fun h => (nomatch h), fun ⟨e, he⟩ => (nomatch he)⟩
  | .ok (first :: rest) => exact ⟨fun h => (nomatch h), fun ⟨e, he⟩ => (nomatch he)⟩

theorem Transcript.isTraceFailed_of_mem_events [Dialect] {settings : Settings}
    {found : Discovered} (t : Transcript) {lookups : List Lookup}
    (h : ∀ l ∈ lookups, ¬ Lookup.Stops l.2) :
    ∀ e ∈ t.eventsBefore settings found ++ lookups.map (Lookup.event settings.layout.basedir),
      e.isTraceFailed = false := by
  intro e he
  rcases List.mem_append.mp he with he | he
  · exact (Bool.or_eq_false_iff.mp (aboutRoute_of_mem_eventsBefore he)).2
  · obtain ⟨l, hl, rfl⟩ := List.mem_map.mp he
    rw [← Bool.not_eq_true, Lookup.isTraceFailed_event_iff]
    exact h l hl

/-- The events of a run and its end.  The accepted files are read in order, and every named route
of theirs is looked up in order until a trace cannot be read; nothing else is asked, since
sources that give the same answers give the same run.  The events are those of the transcript.
If all traces can be read, the run has a summary and reports no trace that cannot be read.
Otherwise the first one that cannot be read is reported by the last event, which is the only one
of its kind, and the result is the failure of this route. -/
theorem run_protocol [Dialect] (settings : Settings) (found : Discovered) (sources : Sources) :
    ∃ t : Transcript, t.Of settings found sources ∧
      (∀ other, t.Of settings found other →
        run settings found other = run settings found sources) ∧
      t.reads.map Prod.fst = found.java.filter settings.fileFilter.accepts ∧
      t.lookups.map Prod.fst <+: named t.routes ∧
      (run settings found sources).1 = t.events settings found ∧
      (((∀ l ∈ t.lookups, ∃ trace, l.2 = .ok trace) ∧
          t.lookups.map Prod.fst = named t.routes ∧
          (∃ summary, (run settings found sources).2 = .ok summary) ∧
          ∀ e ∈ (run settings found sources).1, e.isTraceFailed = false) ∨
        ∃ earlier id route e, t.lookups = earlier ++ [((id, route), .error e)] ∧
          (∀ l ∈ earlier, ∃ trace, l.2 = .ok trace) ∧
          (run settings found sources).2 = .error ⟨id, e⟩ ∧
          ∃ before, (run settings found sources).1 = before ++ [.traceFailed id e.message] ∧
            ∀ e ∈ before, e.isTraceFailed = false) := by
  obtain ⟨t, ht⟩ := Transcript.exists_transcript settings found sources
  have hrun := run_eq_of_transcript ht
  have hloaded {lookups : List Lookup} (h : ∀ l ∈ lookups, ¬ Lookup.Stops l.2) :
      ∀ l ∈ lookups, ∃ trace, l.2 = .ok trace := fun l hl => Lookup.not_stops_iff.mp (h l hl)
  refine ⟨t, ht, fun other hother => (run_eq_of_transcript hother).trans hrun.symm,
    ht.reads.complete fun _ _ => id, ht.lookups.order, congrArg Prod.fst hrun, ?_⟩
  rw [hrun, Transcript.result, Transcript.events]
  rcases ht.lookups.complete_or_stopped with ⟨hall, hnamed⟩ | ⟨earlier, l, hl, hall, hstops⟩
  · left
    obtain ⟨outcomes, houtcomes⟩ :=
      Lookup.exists_mapM_outcome settings.layout.basedir hall
    rw [houtcomes]
    exact ⟨hloaded hall, hnamed, ⟨_, rfl⟩, t.isTraceFailed_of_mem_events hall⟩
  · right
    -- the look-up that stops is the last one, so its event is the last of the run
    obtain ⟨⟨id, route⟩, answer⟩ := l
    obtain ⟨e, rfl⟩ := hstops
    rw [hl, Lookup.mapM_outcome_of_stops hall, List.map_append, ← List.append_assoc]
    exact ⟨earlier, id, route, e, rfl, hloaded hall, rfl, _, rfl,
      t.isTraceFailed_of_mem_events hall⟩

end RouteCoverage.Run
