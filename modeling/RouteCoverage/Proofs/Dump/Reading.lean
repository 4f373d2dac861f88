import RouteCoverage.Dump
import RouteCoverage.Proofs.Markup.Forest

/-!
# Reading a dump by recursion over its elements

The reader of a dump goes through events with one number, the depth inside the wanted route.
Over a forest it does the same as a recursion: inside the wanted route every tag gives its
record and the depth comes back to where it was (`foldlM_step_inside`); outside, an element of
the wanted route gives the records of all its tags, and any other element is searched
(`foldlM_step_outside`).  Faults keep their place: the first one in document order decides.

For a well-formed document with one outermost element of the route, the trace is that of the
tags of this element (`records_of_wellFormed`).
-/

namespace RouteCoverage.Dump

open Markup (Tag Element)

/-- The records of tags, in order, up to the first fault. -/
def recordsOf : List Tag → Except DumpFault Trace
  | [] => return []
  | t :: tags => do
      let first ← record t
      let rest ← recordsOf tags
      return first.toList ++ rest

theorem recordsOf_append (s t : List Tag) :
    recordsOf (s ++ t) = do
      let first ← recordsOf s
      let rest ← recordsOf t
      return first ++ rest := by
  induction s with
  | nil => simp [recordsOf]
  | cons a s ih =>
      simp only [List.cons_append, recordsOf, ih, bind_assoc, pure_bind, List.append_assoc]

mutual

def read (routeId : String) : Element → Except DumpFault Trace
  | .single tag => do
      if ← isRoute routeId tag then recordsOf [tag] else return []
  | .nested tag content => do
      if ← isRoute routeId tag then recordsOf (tag :: Element.tagsAll content)
      else readAll routeId content

/-- The trace of the wanted route in a forest. -/
def readAll (routeId : String) : List Element → Except DumpFault Trace
  | [] => return []
  | e :: rest => do
      let first ← read routeId e
      let more ← readAll routeId rest
      return first ++ more

end

/-! ### Steps over the events of elements -/

section

variable (routeId : String)

theorem add_eq (p : Progress) (tag : Tag) :
    p.add tag = do
      let first ← record tag
      return { p with trace := p.trace ++ first.toList } := rfl

theorem step_start_inside (depth : Nat) (trace : Trace) (tag : Tag) :
    step routeId ⟨depth + 1, trace⟩ (.start tag) = Progress.add ⟨depth + 2, trace⟩ tag := rfl

theorem step_empty_inside (depth : Nat) (trace : Trace) (tag : Tag) :
    step routeId ⟨depth + 1, trace⟩ (.empty tag) = Progress.add ⟨depth + 1, trace⟩ tag := rfl

theorem step_close (p : Progress) (name : List Char) :
    step routeId p (.close name) = pure { p with depth := p.depth - 1 } := rfl

theorem step_skipped (p : Progress) : step routeId p .skipped = pure p := rfl

theorem step_start_outside (trace : Trace) (tag : Tag) :
    step routeId ⟨0, trace⟩ (.start tag) = do
      if ← isRoute routeId tag then Progress.add ⟨1, trace⟩ tag else return ⟨0, trace⟩ := rfl

theorem step_empty_outside (trace : Trace) (tag : Tag) :
    step routeId ⟨0, trace⟩ (.empty tag) = do
      if ← isRoute routeId tag then Progress.add ⟨0, trace⟩ tag else return ⟨0, trace⟩ := rfl

mutual

/-- Inside the wanted route an element gives the records of all its tags. -/
theorem foldlM_step_events_inside (depth : Nat) : ∀ (trace : Trace) (e : Element),
    e.events.foldlM (step routeId) ⟨depth + 1, trace⟩ = do
      let found ← recordsOf e.tags
      return ⟨depth + 1, trace ++ found⟩
  | trace, .single tag => by
      simp only [Element.events, Element.tags, recordsOf, List.foldlM_cons, List.foldlM_nil,
        step_empty_inside, add_eq, bind_assoc, pure_bind, List.append_nil]
  | trace, .nested tag content => by
      simp only [Element.events, Element.tags, recordsOf, List.cons_append, List.foldlM_cons,
        List.foldlM_append, List.foldlM_nil, step_start_inside, add_eq, bind_assoc, pure_bind,
        foldlM_step_inside (depth + 1) _ content, step_close, List.append_assoc]
      rfl

theorem foldlM_step_inside (depth : Nat) : ∀ (trace : Trace) (f : List Element),
    (Element.eventsAll f).foldlM (step routeId) ⟨depth + 1, trace⟩ = do
      let found ← recordsOf (Element.tagsAll f)
      return ⟨depth + 1, trace ++ found⟩
  | trace, [] => by
      simp only [Element.eventsAll, Element.tagsAll, recordsOf, List.foldlM_nil, pure_bind,
        List.append_nil]
  | trace, e :: rest => by
      simp only [Element.eventsAll, Element.tagsAll, recordsOf_append, List.foldlM_append,
        foldlM_step_events_inside depth _ e, foldlM_step_inside depth _ rest, bind_assoc,
        pure_bind, List.append_assoc]

end

mutual

theorem foldlM_step_events_outside : ∀ (trace : Trace) (e : Element),
    e.events.foldlM (step routeId) ⟨0, trace⟩ = do
      let found ← read routeId e
      return ⟨0, trace ++ found⟩
  | trace, .single tag => by
      simp only [Element.events, read, List.foldlM_cons, List.foldlM_nil, step_empty_outside,
        bind_assoc]
      congr 1
      funext wanted
      cases wanted <;>
        simp only [add_eq, recordsOf, bind_assoc, pure_bind, List.append_nil, if_true, if_false,
          Bool.false_eq_true]
  | trace, .nested tag content => by
      simp only [Element.events, read, List.cons_append, List.foldlM_cons, List.foldlM_append,
        List.foldlM_nil, step_start_outside, bind_assoc]
      congr 1
      funext wanted
      cases wanted with
      | true =>
          simp only [if_true, add_eq, recordsOf, bind_assoc, pure_bind,
            foldlM_step_inside routeId 0 _ content, step_close, List.append_assoc]
      | false =>
          simp only [Bool.false_eq_true, if_false, pure_bind, bind_assoc,
            foldlM_step_outside _ content, step_close]

theorem foldlM_step_outside : ∀ (trace : Trace) (f : List Element),
    (Element.eventsAll f).foldlM (step routeId) ⟨0, trace⟩ = do
      let found ← readAll routeId f
      return ⟨0, trace ++ found⟩
  | trace, [] => by
      simp only [Element.eventsAll, readAll, List.foldlM_nil, pure_bind, List.append_nil]
  | trace, e :: rest => by
      simp only [Element.eventsAll, readAll, List.foldlM_append,
        foldlM_step_events_outside _ e, foldlM_step_outside _ rest, bind_assoc, pure_bind,
        List.append_assoc]

end

/-! ### Whole documents -/

/-- Events without meaning may be left out. -/
theorem foldlM_step_filter (events : List Markup.Event) (p : Progress) :
    (events.filter (· ≠ .skipped)).foldlM (step routeId) p = events.foldlM (step routeId) p := by
  induction events generalizing p with
  | nil => rfl
  | cons e events ih =>
      by_cases he : e = .skipped
      · rw [List.filter_cons_of_neg (by simpa using he), ih, List.foldlM_cons, he, step_skipped,
          pure_bind]
      · rw [List.filter_cons_of_pos (by simpa using he), List.foldlM_cons, List.foldlM_cons]
        exact congrArg _ (funext ih)

theorem foldlM_step_closings (closings : List (List Char)) (p : Progress) :
    (closings.map Markup.Event.close).foldlM (step routeId) p =
      pure ⟨p.depth - closings.length, p.trace⟩ := by
  induction closings generalizing p with
  | nil => rfl
  | cons name closings ih =>
      rw [List.map_cons, List.foldlM_cons, step_close, pure_bind, ih, List.length_cons,
        Nat.sub_sub, Nat.add_comm 1]

/-- The events of a document give the trace of the wanted route in its forest. -/
theorem trace_of_reads {document : List Char} {forest : List Element}
    (h : Markup.Reads document forest) :
    (do let p ← (Markup.events document).1.foldlM (step routeId) ⟨0, []⟩
        return p.trace) = readAll routeId forest := by
  obtain ⟨closings, hevents⟩ := h
  have hforest := foldlM_step_outside routeId [] forest
  rw [← hevents, List.foldlM_append, foldlM_step_filter] at hforest
  have htrace := congrArg (fun read => Progress.trace <$> read) hforest
  simpa [foldlM_step_closings] using htrace

/-- A dump that is read as a forest gives the trace of the wanted route in the forest; a fault
of the document counts after everything before it. -/
theorem records_of_reads {document : String} {forest : List Element}
    (h : Markup.Reads document.toList forest) :
    records routeId document = do
      let trace ← readAll routeId forest
      match (Markup.events document.toList).2 with
      | some e => throw (.malformed e)
      | none => return trace := by
  rw [← trace_of_reads routeId h, bind_assoc]
  rfl

/-! ### Well-formed documents -/

/-- Whether a tag opens the wanted route: its local name is `route`, and the text of its `id` is
the wanted id. -/
def opens (tag : Tag) : Bool :=
  decide (tag.localName = routeName) && tag.lookup idKey == some routeId.toList

theorem isRoute_eq_opens {tag : Tag} (h : tag.attributes.2 = none) :
    isRoute routeId tag = pure (opens routeId tag) := by
  unfold isRoute opens value?
  rw [Tag.find?_eq_lookup h]
  by_cases hname : tag.localName = routeName
  · simp only [hname, decide_true, Bool.true_and]
    rfl
  · simp only [hname, decide_false, Bool.false_and]
    rfl

mutual

/-- Without faults in attributes, the trace is that of the outermost elements of the route. -/
theorem read_eq : ∀ e : Element, (∀ tag ∈ e.tags, tag.attributes.2 = none) →
    read routeId e = recordsOf (Element.tagsAll (e.outermost (opens routeId)))
  | .single tag, h => by
      rw [read, isRoute_eq_opens routeId (h tag List.mem_cons_self), pure_bind, Element.outermost]
      cases opens routeId tag <;> rfl
  | .nested tag content, h => by
      rw [read, isRoute_eq_opens routeId (h tag List.mem_cons_self), pure_bind, Element.outermost]
      cases opens routeId tag with
      | true => simp [Element.tagsAll, Element.tags]
      | false => exact readAll_eq content fun t ht => h t (List.mem_cons_of_mem tag ht)

theorem readAll_eq : ∀ f : List Element, (∀ tag ∈ Element.tagsAll f, tag.attributes.2 = none) →
    readAll routeId f = recordsOf (Element.tagsAll (Element.outermostAll (opens routeId) f))
  | [], _ => rfl
  | e :: rest, h => by
      rw [readAll, read_eq e fun t ht => h t (List.mem_append_left _ ht),
        readAll_eq rest fun t ht => h t (List.mem_append_right _ ht), Element.outermostAll,
        Element.tagsAll_append, recordsOf_append]

end

/-- In a well-formed dump the trace of the wanted route is that of the tags of its outermost
elements. -/
theorem records_eq_recordsOf {document : String} {forest : List Element}
    (h : Markup.WellFormed document.toList forest) :
    records routeId document =
      recordsOf (Element.tagsAll (Element.outermostAll (opens routeId) forest)) := by
  rw [records_of_reads routeId h.reads, h.noFault, readAll_eq routeId forest h.attributes]
  exact bind_pure _

/-- In a well-formed dump with one outermost element of the wanted route, the trace of the route
is that of the tags of this element. -/
theorem records_of_wellFormed {document : String} {forest : List Element} {route : Element}
    (h : Markup.WellFormed document.toList forest)
    (hroute : Element.outermostAll (opens routeId) forest = [route]) :
    records routeId document = recordsOf route.tags := by
  rw [records_eq_recordsOf routeId h, hroute, Element.tagsAll, Element.tagsAll, List.append_nil]

end

end RouteCoverage.Dump
