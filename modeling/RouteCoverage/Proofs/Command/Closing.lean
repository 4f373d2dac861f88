import RouteCoverage.Command
import RouteCoverage.Proofs.Run.Transcript

/-!
# The line that closes the output

A finished run closes its output with the line that all routes are fully covered, or with a line
for each route that is not; a run that fails ends its output before.  Which of these it was can be
read off the very last line, since the lines that can be last end in different characters: a full
stop, a percent sign, the `s` of the number of routes, or the line feed of a report (`EndsIn`).
-/

namespace RouteCoverage

/-! ### Last lines and their last characters -/

/-- A text of lines of which `line` is the last one. -/
def EndsWithLine (text line : String) : Prop := ∃ before, text = unlines (before ++ [line])

def lastChar (line : String) : Option Char := line.toList.getLast?

/-- There is a last line, and it ends in one of the characters `cs`. -/
def EndsIn (cs : List Char) (lines : List String) : Prop :=
  ∃ before line, lines = before ++ [line] ∧ ∃ c ∈ cs, lastChar line = some c

theorem lastChar_append {c : Char} {b : String} (a : String) (h : lastChar b = some c) :
    lastChar (a ++ b) = some c := by
  unfold lastChar at h ⊢
  rw [String.toList_append, List.getLast?_append, h]
  rfl

theorem toList_unlines_append_singleton (before : List String) (line : String) :
    (unlines (before ++ [line])).toList = (unlines before).toList ++ line.toList ++ ['\n'] := by
  rw [toList_unlines, List.flatMap_append, ← toList_unlines]
  simp

/-- A text of lines ends in a line feed. -/
theorem lastChar_unlines {lines : List String} (h : lines ≠ []) :
    lastChar (unlines lines) = some '\n' := by
  rcases List.eq_nil_or_concat lines with rfl | ⟨before, line, rfl⟩
  · exact absurd rfl h
  · rw [List.concat_eq_append, lastChar, toList_unlines_append_singleton, List.getLast?_concat]

namespace EndsIn

variable {cs : List Char} {lines : List String}

theorem of_line {c : Char} {line : String} (before : List String) (hc : c ∈ cs)
    (h : lastChar line = some c) : EndsIn cs (before ++ [line]) :=
  ⟨before, line, rfl, c, hc, h⟩

theorem append {more : List String} (h : EndsIn cs lines)
    (hmore : ∀ line ∈ more, ∃ c ∈ cs, lastChar line = some c) : EndsIn cs (lines ++ more) := by
  rcases List.eq_nil_or_concat more with rfl | ⟨earlier, line, rfl⟩
  · rwa [List.append_nil]
  · rw [List.concat_eq_append] at hmore ⊢
    rw [← List.append_assoc]
    obtain ⟨c, hc, hline⟩ := hmore line List.mem_append_cons_self
    exact of_line _ hc hline

theorem prepend (before : List String) (h : EndsIn cs lines) : EndsIn cs (before ++ lines) := by
  obtain ⟨earlier, line, rfl, c, hc, hline⟩ := h
  rw [← List.append_assoc]
  exact of_line _ hc hline

/-- The last character tells last lines apart, even if a line feed stands within a line. -/
theorem not_endsWithLine {c : Char} {line : String} (h : EndsIn cs lines)
    (hline : lastChar line = some c) (hc : c ∉ cs) : ¬ EndsWithLine (unlines lines) line := by
  rintro ⟨before', htext⟩
  obtain ⟨before, last, rfl, d, hd, hlast⟩ := h
  have hchars := congrArg String.toList htext
  rw [toList_unlines_append_singleton, toList_unlines_append_singleton] at hchars
  have hends := congrArg List.getLast? (List.append_cancel_right hchars)
  unfold lastChar at hlast hline
  rw [List.getLast?_append, List.getLast?_append, hlast, hline] at hends
  obtain rfl : d = c := Option.some.inj hends
  exact hc hd

end EndsIn

/-! ### The last lines of a run -/

/-- The line that closes a run with `reported` reports when all of them are fully covered. -/
def allCoveredLine (reported : Nat) : String :=
  "OK " ++ toString reported ++ " route(s) reported, all fully covered."

theorem lastChar_allCoveredLine (reported : Nat) : lastChar (allCoveredLine reported) = some '.' :=
  lastChar_append _ (by decide)

namespace Console

theorem out_append (a b : Console) : (a ++ b).out = a.out ++ b.out := rfl

/-- When all reported routes are fully covered, the summary is the line that says so. -/
theorem out_summary_of_eq_zero {failOnError : Bool} {s : Summary} (h : s.notFullyCovered = 0) :
    (summary failOnError s).out = [allCoveredLine s.reports.length] := by
  have hnone : s.reports.filter (fun r => !r.report.isFullyCovered) = [] :=
    List.length_eq_zero_iff.mp h
  unfold summary closing
  dsimp only
  rw [if_pos h, hnone]
  rfl

theorem endsIn_summary (failOnError : Bool) {s : Summary} (h : s.notFullyCovered ≠ 0) :
    EndsIn ['%'] (summary failOnError s).out := by
  have hsome : s.reports.filter (fun r => !r.report.isFullyCovered) ≠ [] := fun hnil =>
    h (List.length_eq_zero_iff.mpr hnil)
  unfold summary
  dsimp only
  rcases List.eq_nil_or_concat (s.reports.filter fun r => !r.report.isFullyCovered) with
    hnil | ⟨earlier, r, hr⟩
  · exact absurd hnil hsome
  · rw [hr, List.concat_eq_append, List.map_append, ← List.cons_append]
    exact .of_line _ List.mem_cons_self (lastChar_append _ (by decide))

end Console

namespace Run

/-- What a run writes to the standard output for its events. -/
def written (verbose : Bool) (events : List Event) : List String :=
  (Console.all (events.map (Console.event verbose))).out

theorem written_append (verbose : Bool) (events more : List Event) :
    written verbose (events ++ more) = written verbose events ++ written verbose more := by
  unfold written Console.all
  rw [List.map_append]
  exact List.flatMap_append

/-- A report ends in a line feed. -/
theorem lastChar_render (file routeId : String) (entries : List Entry) :
    lastChar (render file routeId entries).text = some '\n' := by
  unfold render
  exact lastChar_unlines (List.append_ne_nil_of_right_ne_nil _ (List.cons_ne_nil _ _))

/-- Of what comes of a route, only its report is written to the standard output. -/
theorem lastChar_of_mem_out_event {verbose : Bool} {basedir : Path} {l : Lookup} {line : String}
    (h : line ∈ (Console.event verbose (l.event basedir)).out) : lastChar line = some '\n' := by
  obtain ⟨⟨id, route⟩, answer⟩ := l
  match answer with
  | .error e => cases h
  | .ok [] => cases h
  | .ok (first :: rest) =>
      obtain rfl := List.mem_singleton.mp h
      exact lastChar_append _ (lastChar_render _ _ _)

variable [Dialect]

theorem endsIn_written_eventsBefore (verbose : Bool) (settings : Settings) (found : Discovered)
    (t : Transcript) : EndsIn ['s', '\n'] (written verbose (t.eventsBefore settings found)) := by
  unfold Transcript.eventsBefore
  rw [written_append, written_append]
  -- the routes without an id are told of on the other channel
  have hanonymous : written verbose (if t.anonymous = [] then []
      else [Event.anonymousRoutes t.anonymous.length]) = [] := by
    split <;> rfl
  rw [hanonymous, List.append_nil]
  exact .of_line _ List.mem_cons_self (lastChar_append _ (by decide))

theorem endsIn_written_events (verbose : Bool) (settings : Settings) (found : Discovered)
    (t : Transcript) : EndsIn ['s', '\n'] (written verbose (t.events settings found)) := by
  unfold Transcript.events
  rw [written_append]
  refine (endsIn_written_eventsBefore verbose settings found t).append fun line hline => ?_
  unfold written Console.all at hline
  obtain ⟨console, hconsole, hline⟩ := List.mem_flatMap.mp hline
  obtain ⟨event, hevent, rfl⟩ := List.mem_map.mp hconsole
  obtain ⟨l, -, rfl⟩ := List.mem_map.mp hevent
  exact ⟨'\n', List.mem_cons_of_mem _ List.mem_cons_self, lastChar_of_mem_out_event hline⟩

end Run

namespace Command

theorem out_settingsWarning (tree : FileTree) (basedir : Path) :
    (settingsWarning tree basedir).out = [] := by
  unfold settingsWarning
  split <;> rfl

end Command

end RouteCoverage
