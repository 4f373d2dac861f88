import RouteCoverage.DumpDirectory
import RouteCoverage.Proofs.Dump.Count
import RouteCoverage.Proofs.Dump.Faults
import RouteCoverage.Proofs.Files.Lookup

/-!
# The counts of a dump

The reader of a dump looks at some tags for their id and at others for their count; `inspections`
lists these looks in document order.  The records of a dump are those of the tags whose count is
looked at, and its faults are those of all looks (`records_eq_inspections`).  So what the text of
one count does can be read off its place in the list: a text that writes a number gives the record
of that number there, and any other text fails the whole dump, unless a look before fails it
(`trace_of_count`).
-/

namespace RouteCoverage.Dump

open Markup (Tag Element)

/-! ### The looks at a dump -/

/-- A look at a tag: at its id, to see whether it opens the wanted route, or at its count. -/
inductive Inspection where
  | id (tag : Tag)
  | count (tag : Tag)
deriving DecidableEq, Repr

namespace Inspection

def counted? : Inspection → Option Tag
  | id _ => none
  | count tag => some tag

/-- The record that a look finds. -/
def record? (i : Inspection) : Option Record := i.counted?.bind Dump.record?

/-- What a look finds at fault. -/
def fault? : Inspection → Option DumpFault
  | id tag => idFault? tag
  | count tag => countFault? tag

theorem filterMap_fault?_map_count (tags : List Tag) :
    (tags.map count).filterMap fault? = tags.filterMap countFault? := by
  rw [List.filterMap_map]
  rfl

theorem filterMap_counted?_map_count (tags : List Tag) :
    (tags.map count).filterMap counted? = tags := by
  rw [List.filterMap_map]
  exact List.filterMap_some

theorem filterMap_record? (looks : List Inspection) :
    looks.filterMap record? = (looks.filterMap counted?).filterMap Dump.record? :=
  List.filterMap_filterMap.symm

end Inspection

section

variable (routeId : String)

mutual

/-- The looks at the tags of an element, in document order: at the counts inside the wanted route,
and at the ids elsewhere. -/
def inspections : Element → List Inspection
  | .single tag => if opens routeId tag then [.count tag] else [.id tag]
  | .nested tag content =>
      if opens routeId tag then (tag :: Element.tagsAll content).map .count
      else .id tag :: inspectionsAll content

/-- The looks at the tags of a forest, in document order. -/
def inspectionsAll : List Element → List Inspection
  | [] => []
  | e :: rest => inspections e ++ inspectionsAll rest

end

mutual

/-- The faults of an element are what the looks at its tags find. -/
theorem faults_eq : ∀ e : Element,
    faults routeId e = (inspections routeId e).filterMap Inspection.fault?
  | .single tag => by
      rw [faults, inspections]
      cases opens routeId tag with
      | true => exact ((filterMap_cons_eq ..).trans (List.append_nil _)).symm
      | false => exact ((filterMap_cons_eq ..).trans (List.append_nil _)).symm
  | .nested tag content => by
      rw [faults, inspections]
      cases opens routeId tag with
      | true => exact (Inspection.filterMap_fault?_map_count _).symm
      | false =>
          rw [if_neg Bool.false_ne_true, if_neg Bool.false_ne_true, filterMap_cons_eq,
            faultsAll_eq content]
          rfl

theorem faultsAll_eq : ∀ f : List Element,
    faultsAll routeId f = (inspectionsAll routeId f).filterMap Inspection.fault?
  | [] => rfl
  | e :: rest => by
      rw [faultsAll, inspectionsAll, List.filterMap_append, faults_eq e, faultsAll_eq rest]

end

mutual

theorem filterMap_counted?_inspections : ∀ e : Element,
    (inspections routeId e).filterMap Inspection.counted? =
      Element.tagsAll (e.outermost (opens routeId))
  | .single tag => by
      rw [inspections, Element.outermost]
      cases opens routeId tag <;> rfl
  | .nested tag content => by
      rw [inspections, Element.outermost]
      cases opens routeId tag with
      | true =>
          simp only [if_true, Inspection.filterMap_counted?_map_count, Element.tagsAll,
            Element.tags, List.append_nil]
      | false => exact filterMap_counted?_inspectionsAll content

/-- Counts are looked at inside the outermost elements of the wanted route, and nowhere else. -/
theorem filterMap_counted?_inspectionsAll : ∀ f : List Element,
    (inspectionsAll routeId f).filterMap Inspection.counted? =
      Element.tagsAll (Element.outermostAll (opens routeId) f)
  | [] => rfl
  | e :: rest => by
      rw [inspectionsAll, List.filterMap_append, filterMap_counted?_inspections e,
        filterMap_counted?_inspectionsAll rest, Element.outermostAll, Element.tagsAll_append]

end

/-- A dump gives the records that the looks at it find, or the first fault: that of a look, or that
of the document. -/
theorem records_eq_inspections (document : String) :
    records routeId document =
      settle
        ((inspectionsAll routeId (Markup.forest document.toList)).filterMap Inspection.fault? ++
          ((Markup.events document.toList).2.map DumpFault.malformed).toList)
        ((inspectionsAll routeId (Markup.forest document.toList)).filterMap
          Inspection.record?) := by
  rw [(records_eq_settle routeId document).2, faultsAll_eq, Inspection.filterMap_record?,
    filterMap_counted?_inspectionsAll, Element.tagsAll_eq_flatMap, List.filterMap_flatMap]

end

/-! ### The text of one count -/

section

variable {tag : Tag} {text : List Char}

theorem record?_of_writes (htext : tag.lookup totalKey = some text) {h : Hits}
    (hwrites : Hits.Writes text h.count) :
    record? tag = some ⟨reportedName tag, h⟩ ∧ countFault? tag = none := by
  have hparse := Hits.parse?_eq_some_iff.mpr hwrites
  constructor
  · simp [record?, htext, hparse]
  · simp [countFault?, htext, hparse]

theorem countFault?_of_not_writes (htext : tag.lookup totalKey = some text)
    (hwrites : ¬ ∃ h : Hits, Hits.Writes text h.count) :
    countFault? tag =
      some (.invalidCount (String.ofList tag.localName) (String.ofList text)) := by
  have hparse := Hits.parse?_eq_none_iff.mpr hwrites
  simp [countFault?, htext, hparse]

end

theorem settle_append_cons (faults more : List DumpFault) (fault : DumpFault) (trace : Trace) :
    settle (faults ++ fault :: more) trace = .error (faults.headD fault) := by
  cases faults <;> rfl

/-- The text of one count in a dump.  The counts that are looked at are those of the outermost
elements of the wanted route and of everything inside them.  At one of them, a text that writes a
number within the limit gives the record of that number: the looks before and after it decide
whether the dump fails, and if it does not, the record stands between theirs.  If the text writes
no such number, the dump fails with the element and the text as written, unless a look before
fails it.  The digits of any number within the limit, with blanks around, write that number. -/
theorem trace_of_count {tree : FileTree} {file : Path} {document : String}
    (hfile : tree.readText file = .ok document) {routeId : String}
    {before after : List Inspection} {tag : Tag}
    (hplace : inspectionsAll routeId (Markup.forest document.toList) =
      before ++ .count tag :: after)
    {text : List Char} (htext : tag.lookup totalKey = some text) :
    (inspectionsAll routeId (Markup.forest document.toList)).filterMap Inspection.counted? =
        (Element.outermostAll (opens routeId) (Markup.forest document.toList)).flatMap
          Element.tags ∧
      (∀ h : Hits, Hits.Writes text h.count →
        DumpDirectory.trace tree routeId file =
          (settle
            ((before ++ after).filterMap Inspection.fault? ++
              ((Markup.events document.toList).2.map DumpFault.malformed).toList)
            (before.filterMap Inspection.record? ++
              ⟨reportedName tag, h⟩ :: after.filterMap Inspection.record?)).mapError
            fun fault => ⟨file.text, .fault fault⟩) ∧
      ((¬ ∃ h : Hits, Hits.Writes text h.count) →
        DumpDirectory.trace tree routeId file =
          .error ⟨file.text, .fault ((before.filterMap Inspection.fault?).headD
            (.invalidCount (String.ofList tag.localName) (String.ofList text)))⟩) ∧
      ∀ (h : Hits) (lead trail : List Char), (∀ c ∈ lead, isBlank c) → (∀ c ∈ trail, isBlank c) →
        Hits.Writes (lead ++ Nat.toDigits 10 h.count ++ trail) h.count := by
  have htrace : DumpDirectory.trace tree routeId file =
      (records routeId document).mapError fun fault => ⟨file.text, .fault fault⟩ := by
    rw [DumpDirectory.trace, hfile]
  rw [records_eq_inspections, hplace] at htrace
  refine ⟨?_, fun h hwrites => ?_, fun hwrites => ?_, fun h lead trail hlead htrail => ?_⟩
  · rw [filterMap_counted?_inspectionsAll, Element.tagsAll_eq_flatMap]
  · obtain ⟨hrecord, hfault⟩ := record?_of_writes htext hwrites
    have hfault' : (Inspection.count tag).fault? = none := hfault
    have hrecord' : (Inspection.count tag).record? = some ⟨reportedName tag, h⟩ := hrecord
    rw [htrace, List.filterMap_append, List.filterMap_append, List.filterMap_cons_none hfault',
      List.filterMap_cons_some hrecord', List.filterMap_append]
  · have hfault : (Inspection.count tag).fault? =
        some (.invalidCount (String.ofList tag.localName) (String.ofList text)) :=
      countFault?_of_not_writes htext hwrites
    rw [htrace, List.filterMap_append, List.filterMap_cons_some hfault, List.append_assoc,
      List.cons_append, settle_append_cons]
    rfl
  · exact (Hits.writes_toDigits h.count).padded hlead htrail

/-- A dump of a route with a count that holds a blank. -/
def blankInCount : FileTree :=
  ⟨.directory [("T.xml", .file
    "<route id='r' exchangesTotal=' +007 '><to exchangesTotal='1 2'/></route>".toUTF8)], []⟩

/-- The blank fails the dump, and the count before it is none of the faults. -/
theorem trace_of_blankInCount :
    inspectionsAll "r" (Markup.forest
        "<route id='r' exchangesTotal=' +007 '><to exchangesTotal='1 2'/></route>".toList) =
        [.count ⟨"route id='r' exchangesTotal=' +007 '".toList⟩] ++
          .count ⟨"to exchangesTotal='1 2'".toList⟩ :: [] ∧
      DumpDirectory.trace blankInCount "r" ⟨"T.xml"⟩ =
        .error ⟨"T.xml", .fault (.invalidCount "to" "1 2")⟩ := by
  have hplace : inspectionsAll "r" (Markup.forest
      "<route id='r' exchangesTotal=' +007 '><to exchangesTotal='1 2'/></route>".toList) =
      [.count ⟨"route id='r' exchangesTotal=' +007 '".toList⟩] ++
        .count ⟨"to exchangesTotal='1 2'".toList⟩ :: [] := by decide +kernel
  have hfile : blankInCount.readText ⟨"T.xml"⟩ = .ok
      "<route id='r' exchangesTotal=' +007 '><to exchangesTotal='1 2'/></route>" := by
    decide +kernel
  have htext : Tag.lookup ⟨"to exchangesTotal='1 2'".toList⟩ totalKey = some "1 2".toList := by
    decide +kernel
  have hwrites : ¬ ∃ h : Hits, Hits.Writes "1 2".toList h.count :=
    Hits.parse?_eq_none_iff.mp (by decide +kernel)
  refine ⟨hplace, ((trace_of_count hfile hplace htext).2.2.1 hwrites).trans ?_⟩
  decide +kernel

end RouteCoverage.Dump
