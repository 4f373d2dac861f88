import RouteCoverage.Proofs.Markup.Forest

/-!
# Every document is read as one forest

The events of a document are arranged as a forest with a stack of open elements
(`Unfinished`): a start tag opens an element inside the innermost open one, an end tag closes
the innermost one, and at the end of the text every open element is closed.  The reader of a
document checks its end tags against the open elements (`opens_of_markup`), so every event ends
up in the forest (`reads_forest`); and the events of a forest are arranged as that forest
(`foldl_read_eventsAll`).  So a document is read as exactly one forest, the one that `forest`
computes (`reads_iff`).
-/

namespace RouteCoverage.Markup

/-! ### End tags close the innermost element -/

/-- The names of the open elements before and after an event, innermost first. -/
inductive Opens : List (List Char) → Event → List (List Char) → Prop
  | start {opened : List (List Char)} (tag : Tag) :
      Opens opened (.start tag) (tag.name :: opened)
  | empty {opened : List (List Char)} (tag : Tag) : Opens opened (.empty tag) opened
  | close {opened : List (List Char)} (name : List Char) :
      Opens (name :: opened) (.close name) opened
  | skipped {opened : List (List Char)} : Opens opened .skipped opened

/-- An end tag is read only where it closes the innermost element. -/
theorem opens_of_endEvent {opened opened' : List (List Char)} {content : List Char} {e : Event}
    (h : endEvent opened content = .ok (e, opened')) : Opens opened e opened' := by
  unfold endEvent at h
  cases opened with
  | nil => cases h
  | cons expected outer =>
      dsimp only at h
      split at h
      · rename_i hname
        cases h
        rw [hname]
        exact .close expected
      · cases h

theorem opens_of_markup {opened opened' : List (List Char)} {s rest : List Char} {e : Event}
    (h : markup opened s = .ok (e, opened', rest)) : Opens opened e opened' := by
  unfold markup at h
  split at h
  · split at h
    · cases h
      exact .skipped
    · cases h
  · split at h
    · split at h
      · cases h
        exact .skipped
      · cases h
    · cases h
  · split at h
    · cases h
    · split at h
      · rename_i hend
        cases h
        exact opens_of_endEvent hend
      · cases h
  · split at h
    · cases h
    · rename_i content rest' hsplit
      unfold startEvent at h
      split at h
      · rename_i tag htag
        cases h
        exact .start tag
      · rename_i hstart
        cases h
        split at hstart
        · exact .empty _
        · exact absurd rfl (hstart _)

/-- Events at a place where the elements named `opened` are open: every end tag among them
closes the innermost element that is open before it. -/
inductive Fits : List (List Char) → List Event → Prop
  | nil (opened : List (List Char)) : Fits opened []
  | cons {opened opened' : List (List Char)} {e : Event} {events : List Event} :
      Opens opened e opened' → Fits opened' events → Fits opened (e :: events)

theorem fits_eventsFrom (opened : List (List Char)) (s : List Char) :
    Fits opened (eventsFrom opened s).1 := by
  fun_induction eventsFrom opened s with
  | case1 opened s h => exact .nil _
  | case2 opened s c inner h e hmarkup => exact .nil _
  | case3 opened s c inner h e opened' rest hmarkup hlt events fault hrest ih =>
      rw [hrest] at ih
      exact .cons (opens_of_markup hmarkup) ih

/-! ### Forests with open elements -/

/-- A forest that is not finished: the elements in the innermost open element so far, and the
open elements from the inside out, each with its tag and the elements before it. -/
structure Unfinished where
  content : List Element
  around : List (Tag × List Element)

namespace Unfinished

/-- Nothing has been read, and no element is open. -/
def start : Unfinished := ⟨[], []⟩

/-- The names of the open elements, innermost first. -/
def opened (u : Unfinished) : List (List Char) := u.around.map (·.1.name)

def add (e : Element) (u : Unfinished) : Unfinished := { u with content := u.content ++ [e] }

/-- Opens an element. -/
def enter (tag : Tag) (u : Unfinished) : Unfinished := ⟨[], (tag, u.content) :: u.around⟩

/-- Closes the innermost open element, if there is one. -/
def leave (u : Unfinished) : Unfinished :=
  match u.around with
  | [] => u
  | (tag, before) :: around => ⟨before ++ [.nested tag u.content], around⟩

/-- Puts one event into its place. -/
def read (u : Unfinished) : Event → Unfinished
  | .start tag => u.enter tag
  | .empty tag => u.add (.single tag)
  | .close _ => u.leave
  | .skipped => u

/-- Closes open elements around finished content. -/
def closeAll : List Element → List (Tag × List Element) → List Element
  | content, [] => content
  | content, (tag, before) :: around => closeAll (before ++ [.nested tag content]) around

/-- The forest once every open element is closed. -/
def finish (u : Unfinished) : List Element := closeAll u.content u.around

/-- The events before the content of the innermost open element. -/
def eventsAround : List (Tag × List Element) → List Event
  | [] => []
  | (tag, before) :: around => eventsAround around ++ Element.eventsAll before ++ [.start tag]

/-- The events of everything read so far. -/
def events (u : Unfinished) : List Event := eventsAround u.around ++ Element.eventsAll u.content

end Unfinished

/-- The forest of the elements of a document.  Elements that are open at the end of the text, or
at its first fault, are closed there. -/
def forest (document : List Char) : List Element :=
  ((Markup.events document).1.foldl Unfinished.read .start).finish

namespace Element

theorem eventsAll_append (f g : List Element) :
    eventsAll (f ++ g) = eventsAll f ++ eventsAll g := by
  induction f with
  | nil => rfl
  | cons e f ih => rw [List.cons_append, eventsAll, ih, eventsAll, List.append_assoc]

theorem eventsAll_singleton (e : Element) : eventsAll [e] = e.events := by
  rw [eventsAll, eventsAll, List.append_nil]

end Element

/-! ### The forest of a document has its events -/

namespace Unfinished

/-- Reading an event lists it last, and opens and closes elements as the event does. -/
theorem events_read {u : Unfinished} {e : Event} {opened opened' : List (List Char)}
    (hu : u.opened = opened) (h : Opens opened e opened') :
    (u.read e).events = u.events ++ [e].filter (· ≠ .skipped) ∧ (u.read e).opened = opened' := by
  obtain ⟨content, around⟩ := u
  cases h with
  | start tag =>
      refine ⟨?_, congrArg (tag.name :: ·) hu⟩
      simp [read, enter, events, eventsAround, Element.eventsAll]
  | empty tag =>
      refine ⟨?_, hu⟩
      simp [read, add, events, Element.eventsAll_append, Element.eventsAll_singleton,
        Element.events]
  | close name =>
      cases around with
      | nil => cases hu
      | cons frame around =>
          obtain ⟨tag, before⟩ := frame
          obtain ⟨rfl, rfl⟩ := List.cons_eq_cons.mp hu
          refine ⟨?_, rfl⟩
          simp [read, leave, events, eventsAround, Element.eventsAll_append,
            Element.eventsAll_singleton, Element.events]
  | skipped => exact ⟨by simp [read], hu⟩

theorem events_foldl_read {opened : List (List Char)} {es : List Event} (h : Fits opened es) :
    ∀ u : Unfinished, u.opened = opened →
      (es.foldl read u).events = u.events ++ es.filter (· ≠ .skipped) := by
  induction h with
  | nil opened => intro u _; simp
  | @cons opened opened' e es hopens _ ih =>
      intro u hu
      obtain ⟨hevents, hopened⟩ := events_read hu hopens
      rw [List.foldl_cons, ih _ hopened, hevents, List.append_assoc, ← List.filter_append]
      rfl

theorem eventsAll_closeAll (around : List (Tag × List Element)) : ∀ content : List Element,
    Element.eventsAll (closeAll content around) =
      eventsAround around ++ Element.eventsAll content ++
        (around.map (·.1.name)).map Event.close := by
  induction around with
  | nil =>
      intro content
      simp [closeAll, eventsAround]
  | cons frame around ih =>
      intro content
      obtain ⟨tag, before⟩ := frame
      rw [closeAll, ih, Element.eventsAll_append, Element.eventsAll_singleton, Element.events]
      simp [eventsAround]

theorem eventsAll_finish (u : Unfinished) :
    Element.eventsAll u.finish = u.events ++ u.opened.map Event.close :=
  eventsAll_closeAll u.around u.content

end Unfinished

/-- A document is read as its forest. -/
theorem reads_forest (document : List Char) : Reads document (forest document) := by
  have hlisted := Unfinished.events_foldl_read (fits_eventsFrom [] document) .start rfl
  refine ⟨((Markup.events document).1.foldl Unfinished.read .start).opened, ?_⟩
  rw [forest, Unfinished.eventsAll_finish, Markup.events, hlisted]
  rfl

/-! ### No other forest has these events -/

namespace Unfinished

mutual

theorem foldl_read_events : ∀ (e : Element) (u : Unfinished), e.events.foldl read u = u.add e
  | .single tag, u => rfl
  | .nested tag content, u => by
      rw [Element.events, List.cons_append, List.foldl_cons, List.foldl_append,
        foldl_read_eventsAll content]
      rfl

theorem foldl_read_eventsAll : ∀ (f : List Element) (u : Unfinished),
    (Element.eventsAll f).foldl read u = { u with content := u.content ++ f }
  | [], u => by
      rw [Element.eventsAll, List.foldl_nil, List.append_nil]
  | e :: rest, u => by
      rw [Element.eventsAll, List.foldl_append, foldl_read_events e, foldl_read_eventsAll rest]
      simp [add]

end

theorem foldl_read_filter (es : List Event) (u : Unfinished) :
    (es.filter (· ≠ .skipped)).foldl read u = es.foldl read u := by
  rw [List.foldl_filter]
  congr 1
  funext u e
  cases e <;> rfl

theorem finish_leave (u : Unfinished) : u.leave.finish = u.finish := by
  obtain ⟨content, around⟩ := u
  cases around <;> rfl

/-- End tags close elements that are closed at the end anyway. -/
theorem finish_foldl_read_closings (closings : List (List Char)) (u : Unfinished) :
    ((closings.map Event.close).foldl read u).finish = u.finish := by
  induction closings generalizing u with
  | nil => rfl
  | cons name closings ih =>
      rw [List.map_cons, List.foldl_cons, ih]
      exact finish_leave u

end Unfinished

/-- A document is read as one forest only. -/
theorem reads_iff {document : List Char} {f : List Element} :
    Reads document f ↔ f = forest document := by
  constructor
  · rintro ⟨closings, hevents⟩
    -- both sides are arranged again: one gives `forest document`, the other `f` itself
    have hread := congrArg (fun es => (es.foldl Unfinished.read .start).finish) hevents
    rw [List.foldl_append, Unfinished.finish_foldl_read_closings, Unfinished.foldl_read_filter,
      Unfinished.foldl_read_eventsAll] at hread
    exact hread.symm
  · rintro rfl
    exact reads_forest document

end RouteCoverage.Markup
