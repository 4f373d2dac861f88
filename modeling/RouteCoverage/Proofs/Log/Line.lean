import RouteCoverage.Log.Line
import RouteCoverage.Proofs.Log.Json

/-!
# Lines of the event log are read back

An event whose numbers fit into 64 bits is read back from the line that was written for it
(`LoggedEvent.ofLine?_render`); the line holds no control character, whatever texts the event
carries (`LoggedEvent.printable_render`).  No two events are written alike
(`Event.render_toJson_injective`).
-/

namespace RouteCoverage

/-! ### Events as values -/

namespace Event

def numbers : Event → List Nat
  | filesDiscovered java xml => [java, xml]
  | xmlUnsupported n | routesDiscovered n | anonymousRoutes n => [n]
  | routeCovered _ _ covered total _ => [covered, total]
  | fileSkipped _ | parseFailed _ _ | traceMissing _ | traceFailed _ _ => []

theorem fits_toJson (depth : Nat) (e : Event) : Json.Fits (depth + 2) e.toJson := by
  cases e <;> simp [toJson, Json.Fits]

theorem toJson_injective {a b : Event} (h : a.toJson = b.toJson) : a = b := by
  cases a <;> cases b <;> simp_all [toJson]

/-- No two events are written alike. -/
theorem render_toJson_injective {a b : Event} (h : a.toJson.render = b.toJson.render) : a = b :=
  toJson_injective (Json.render_injective (fits_toJson _ a) (fits_toJson _ b) h)

theorem ofJson?_toJson {e : Event} (h : ∀ n ∈ e.numbers, n < 0x10000000000000000) :
    ofJson? e.toJson = some e := by
  cases e <;> simp_all [numbers, toJson, ofJson?, textField?, naturalField?, field?]

end Event

/-! ### Lines -/

namespace LoggedEvent

/-- All numbers of a line fit into 64 bits. -/
def InRange (e : LoggedEvent) : Prop :=
  ∀ n ∈ e.timestamp :: e.event.numbers, n < 0x10000000000000000

instance : DecidablePred InRange := fun e =>
  List.decidableBAll (· < 0x10000000000000000) (e.timestamp :: e.event.numbers)

variable (e : LoggedEvent)

/-- The value that is written as the line of an event. -/
theorem fits_line (depth : Nat) : Json.Fits (depth + 3)
    (.object [("timestamp", .natural e.timestamp), ("kind", e.event.toJson)]) := by
  intro field hfield
  rcases List.mem_cons.mp hfield with rfl | hfield
  · exact trivial
  · obtain rfl := List.mem_singleton.mp hfield
    exact Event.fits_toJson depth e.event

theorem printable_render : Json.Printable e.render := Json.printable_render (fits_line e 0)

theorem newline_not_mem_render : '\n' ∉ e.render.toList :=
  fun h => absurd (printable_render e '\n' h) (by decide)

variable {e} in
theorem ofLine?_render (h : e.InRange) : ofLine? e.render = some e := by
  obtain ⟨htimestamp, hevent⟩ := List.forall_mem_cons.mp h
  have hvalue := Json.read?_render (fits_line e 124)
  rw [ofLine?, render, hvalue]
  simp [Event.naturalField?, Event.field?, htimestamp, Event.ofJson?_toJson hevent]

end LoggedEvent

end RouteCoverage
