import RouteCoverage.Proofs.Dump.Reading
import RouteCoverage.Proofs.Markup.Nesting

/-!
# The trace of a dump and its first fault

What the reader of a dump gives is decided by two lists that are read off the forest of the
document: the records of the outermost elements of the wanted route, and the faults of the tags
that are inspected.  Outside the wanted route the id of a `route` tag is looked for; inside it,
the count of every tag.  A fault among attributes is met only when the key does not stand before
it (`Tag.faultBefore`).  The first fault in document order is the answer, and without a fault the
records are (`records_eq_settle`); a fault of the document itself comes after everything that was
read before it.
-/

namespace RouteCoverage.Dump

open Markup (Tag Element)

/-! ### Records and faults of a tag -/

/-- The name under which the count of an element is reported. -/
def reportedName (tag : Tag) : String :=
  if tag.localName = routeName then inputName else String.ofList tag.localName

/-- The record of a tag, if it carries the text of a count. -/
def record? (tag : Tag) : Option Record := do
  let text ← tag.lookup totalKey
  let hits ← Hits.parse? text
  return ⟨reportedName tag, hits⟩

/-- The fault of the count of a tag: that of its attributes if it is met before the count, or a
text that is no count. -/
def countFault? (tag : Tag) : Option DumpFault :=
  match tag.lookup totalKey with
  | some text =>
      if (Hits.parse? text).isSome then none
      else some (.invalidCount (String.ofList tag.localName) (String.ofList text))
  | none => tag.attributes.2.map (.malformed <| .badAttribute ·)

/-- The fault of the id of a tag: only the ids of `route` elements are looked for. -/
def idFault? (tag : Tag) : Option DumpFault :=
  if tag.localName = routeName then
    (tag.faultBefore idKey).map (.malformed <| .badAttribute ·)
  else none

/-- The outcome of a reading: the first of its faults, or the trace if there is none. -/
def settle (faults : List DumpFault) (trace : Trace) : Except DumpFault Trace :=
  match faults with
  | [] => .ok trace
  | fault :: _ => .error fault

/-- One reading after another has the faults and the records of both. -/
theorem settle_append (faults more : List DumpFault) (trace rest : Trace) :
    (do let first ← settle faults trace
        let second ← settle more rest
        return first ++ second) = settle (faults ++ more) (trace ++ rest) := by
  cases faults with
  | cons fault faults => rfl
  | nil => cases more <;> rfl

theorem value?_of_faultBefore {tag : Tag} {key : List Char} {e : Markup.AttributeError}
    (h : tag.faultBefore key = some e) :
    value? tag key = .error (.malformed (.badAttribute e)) := by
  rw [value?, (Tag.find?_of_faultBefore h).1]

theorem value?_of_faultBefore_eq_none {tag : Tag} {key : List Char}
    (h : tag.faultBefore key = none) : value? tag key = .ok (tag.lookup key) := by
  rw [value?, Tag.find?_of_faultBefore_eq_none h]

theorem record_eq_settle (tag : Tag) :
    (do return (← record tag).toList) =
      settle (countFault? tag).toList (record? tag).toList := by
  unfold record countFault? record?
  cases hlookup : tag.lookup totalKey with
  | some text =>
      have hfault : tag.faultBefore totalKey = none := by rw [Tag.faultBefore, hlookup]
      rw [value?_of_faultBefore_eq_none hfault, hlookup]
      cases hparse : Hits.parse? text with
      | some hits =>
          simp only [bind, Except.bind, Option.bind, hparse]
          rfl
      | none =>
          simp only [bind, Except.bind, Option.bind, hparse]
          rfl
  | none =>
      have hfault : tag.faultBefore totalKey = tag.attributes.2 := by
        rw [Tag.faultBefore, hlookup]
      cases hattributes : tag.attributes.2 with
      | some e =>
          rw [hattributes] at hfault
          rw [value?_of_faultBefore hfault]
          rfl
      | none =>
          rw [hattributes] at hfault
          rw [value?_of_faultBefore_eq_none hfault, hlookup]
          rfl

theorem isRoute_cases (routeId : String) (tag : Tag) :
    (isRoute routeId tag = .ok (opens routeId tag) ∧ idFault? tag = none) ∨
      ∃ fault, isRoute routeId tag = .error fault ∧ idFault? tag = some fault ∧
        opens routeId tag = false := by
  unfold isRoute idFault? opens
  by_cases hname : tag.localName = routeName
  · simp only [hname, if_true, decide_true, Bool.true_and]
    cases hfault : tag.faultBefore idKey with
    | some e =>
        right
        rw [value?_of_faultBefore hfault, (Tag.find?_of_faultBefore hfault).2]
        exact ⟨_, rfl, rfl, rfl⟩
    | none =>
        left
        rw [value?_of_faultBefore_eq_none hfault]
        exact ⟨rfl, rfl⟩
  · left
    rw [if_neg hname, if_neg hname, decide_eq_false hname, Bool.false_and]
    exact ⟨rfl, rfl⟩

/-! ### Records and faults of a document -/

section

variable (routeId : String)

mutual

/-- The faults of the tags that are inspected in an element, in document order: those of the
counts inside the wanted route, and those of the ids elsewhere. -/
def faults : Element → List DumpFault
  | .single tag =>
      if opens routeId tag then (countFault? tag).toList else (idFault? tag).toList
  | .nested tag content =>
      if opens routeId tag then (tag :: Element.tagsAll content).filterMap countFault?
      else (idFault? tag).toList ++ faultsAll content

/-- The faults of the tags that are inspected in a forest, in document order. -/
def faultsAll : List Element → List DumpFault
  | [] => []
  | e :: rest => faults e ++ faultsAll rest

end

/-- What is found at the first element of a list comes before what is found at the others. -/
theorem filterMap_cons_eq {α β : Type} (f : α → Option β) (a : α) (l : List α) :
    (a :: l).filterMap f = (f a).toList ++ l.filterMap f := by
  rw [List.filterMap_cons]
  cases f a <;> rfl

theorem recordsOf_eq_settle (tags : List Tag) :
    recordsOf tags = settle (tags.filterMap countFault?) (tags.filterMap record?) := by
  induction tags with
  | nil => rfl
  | cons tag tags ih =>
      rw [filterMap_cons_eq, filterMap_cons_eq, ← settle_append, ← record_eq_settle, ← ih,
        recordsOf]
      simp only [bind_assoc, pure_bind]

mutual

/-- An element gives the records of its outermost elements of the route, or its first fault. -/
theorem read_eq_settle : ∀ e : Element,
    read routeId e = settle (faults routeId e)
      ((Element.tagsAll (e.outermost (opens routeId))).filterMap record?)
  | .single tag => by
      rw [read, faults, Element.outermost]
      rcases isRoute_cases routeId tag with ⟨hroute, hfault⟩ | ⟨fault, hroute, hfault, hopens⟩
      · rw [hroute, hfault]
        cases opens routeId tag with
        | true => exact recordsOf_eq_settle [tag]
        | false => rfl
      · rw [hroute, hfault, hopens]
        rfl
  | .nested tag content => by
      rw [read, faults, Element.outermost]
      rcases isRoute_cases routeId tag with ⟨hroute, hfault⟩ | ⟨fault, hroute, hfault, hopens⟩
      · rw [hroute, hfault]
        cases opens routeId tag with
        | true =>
            have htags :
                Element.tagsAll [.nested tag content] = tag :: Element.tagsAll content := by
              rw [Element.tagsAll, Element.tagsAll, List.append_nil, Element.tags]
            rw [if_pos rfl, if_pos rfl, htags]
            exact recordsOf_eq_settle (tag :: Element.tagsAll content)
        | false => exact readAll_eq_settle content
      · rw [hroute, hfault, hopens]
        rfl

theorem readAll_eq_settle : ∀ f : List Element,
    readAll routeId f = settle (faultsAll routeId f)
      ((Element.tagsAll (Element.outermostAll (opens routeId) f)).filterMap record?)
  | [] => rfl
  | e :: rest => by
      rw [readAll, read_eq_settle e, readAll_eq_settle rest, settle_append, faultsAll,
        Element.outermostAll, Element.tagsAll_append, List.filterMap_append]

end

/-- A dump is read as one forest, and gives the records of the outermost elements of the wanted
route and of everything inside them, in document order.  If something is at fault, the answer is
the first fault in document order, among those of the tags that are inspected and that of the
document, which ends the reading. -/
theorem records_eq_settle (document : String) :
    (∀ f, Markup.Reads document.toList f ↔ f = Markup.forest document.toList) ∧
      records routeId document =
        settle
          (faultsAll routeId (Markup.forest document.toList) ++
            ((Markup.events document.toList).2.map DumpFault.malformed).toList)
          ((Element.outermostAll (opens routeId) (Markup.forest document.toList)).flatMap
            fun e => e.tags.filterMap record?) := by
  refine ⟨fun f => Markup.reads_iff, ?_⟩
  rw [records_of_reads routeId (Markup.reads_forest document.toList), readAll_eq_settle,
    Element.tagsAll_eq_flatMap, List.filterMap_flatMap]
  -- the document's own fault is met only when no inspected tag before it is at fault
  cases faultsAll routeId (Markup.forest document.toList) with
  | cons fault faults => rfl
  | nil => cases (Markup.events document.toList).2 <;> rfl

end

end RouteCoverage.Dump
