import Mathlib.Algebra.BigOperators.Group.List.Basic
import Mathlib.Algebra.GroupWithZero.Nat
import RouteCoverage.Report
import RouteCoverage.Proofs.Coverage.Greedy
import RouteCoverage.Proofs.Dsl.Order
import RouteCoverage.Proofs.Dump.Count
import RouteCoverage.Proofs.Dump.Reading
import RouteCoverage.Proofs.Trace.Merge

/-!
# Coverage of a route by the dumps of several runs

A dump that shows a route has one outermost element for it, and the elements in there that
carry a count are the steps of the route in pre-order (`RouteDump.Shows`).  Such a dump is read
as a trace with one record for each step (`records_of_shows`); traces with the same names are
merged count by count (`getElem?_mergeAll_traceOf`); and a trace with the names of the rows
serves each row with its own record (`cover_of_names`).  So the coverage of the route shows for
each step the capped sum of what the dumps show for it (`aggregate_of_dumps`).
-/

namespace RouteCoverage

/-! ### Traces with the names of the rows -/

/-- A trace with the names of the rows serves each row with the record at its position. -/
theorem cover_of_names {rows : List Row} {trace : Trace}
    (h : trace.map Record.name = rows.map Row.name) :
    (cover rows trace).1 = List.zipWith (fun r record => r.entry record.hits) rows trace := by
  induction rows generalizing trace with
  | nil => rfl
  | cons r rows ih =>
      cases trace with
      | nil => cases h
      | cons record trace =>
          obtain ⟨hname, hrest⟩ := List.cons_eq_cons.mp h
          have hserve : Trace.serve r.name (record :: trace) = (record.hits, trace) := by
            simp [Trace.serve, Trace.take?, hname]
          rw [cover_cons, hserve, ih hrest, List.zipWith_cons_cons]

/-- The names of the steps of a tree in pre-order. -/
def Step.names (s : Step) : List String := (s.rows 0).map Row.name

theorem Step.length_names (s : Step) : s.names.length = s.size := by
  rw [names, List.length_map, length_rows]

def traceOf (names : List String) (hits : List Hits) : Trace := List.zipWith Record.mk names hits

theorem map_name_traceOf {names : List String} {hits : List Hits}
    (h : hits.length = names.length) : (traceOf names hits).map Record.name = names := by
  induction names generalizing hits with
  | nil => rfl
  | cons name names ih =>
      cases hits with
      | nil => cases h
      | cons first hits =>
          have hrest := ih (Nat.succ.inj h)
          rw [traceOf, List.zipWith_cons_cons, List.map_cons, ← traceOf, hrest]

/-! ### Steps below the root of a chain's tree -/

namespace Chain

/-- The root of a chain's tree is its first call. -/
theorem name_steps (c : Chain) : c.steps.name = c.start.name := by
  have h := c.labels_steps
  cases hs : c.steps with
  | node name line children =>
      rw [hs, Step.labels, List.cons_eq_cons] at h
      exact congrArg Prod.fst h.1

theorem isStep_of_mem_rows (c : Chain) {level : Nat} {r : Row}
    (hr : r ∈ Step.rowsAll level c.steps.children) : (Role.ofName r.name).isStep = true := by
  have h := c.labels_steps
  cases hs : c.steps with
  | node name line children =>
      rw [hs, Step.labels, List.cons_eq_cons] at h
      rw [hs] at hr
      have hlabel := List.mem_map_of_mem (f := Row.label) hr
      rw [Step.map_label_rowsAll, Step.children, h.2] at hlabel
      obtain ⟨call, hcall, heq⟩ := List.mem_map.mp hlabel
      have hname : call.name = r.name := congrArg Prod.fst heq
      have hstep := (List.mem_filter.mp hcall).2
      rwa [← hname]

end Chain

/-! ### Dumps that show a route -/

namespace Dump

open Markup (Tag Element)

/-- A tag carries a count: the text of its `exchangesTotal` writes the number of hits. -/
def Counts (tag : Tag) (hits : Hits) : Prop :=
  ∃ text, tag.lookup totalKey = some text ∧ Hits.Writes text hits.count

/-- Tags whose `exchangesTotal` are the decimal digits of the hits carry them as counts. -/
theorem forall₂_counts {tags : List Tag} {hits : List Hits}
    (h : tags.map (·.lookup totalKey) = hits.map fun hits => some (Nat.toDigits 10 hits.count)) :
    List.Forall₂ Counts tags hits := by
  have hequal := List.forall₂_eq_eq_eq ▸ h
  rw [List.forall₂_map_left_iff, List.forall₂_map_right_iff] at hequal
  exact hequal.imp fun _ _ hlookup => ⟨_, hlookup, Hits.writes_toDigits _⟩

/-- The tags that carry a count. -/
def carriers (tags : List Tag) : List Tag := tags.filter fun t => (t.lookup totalKey).isSome

/-- An element shows a route: it carries the count of the root, and the tags inside it that
carry `exchangesTotal` are, in document order, those of the steps below the root in pre-order,
each with the step's name and a count.  Tags without `exchangesTotal` may stand anywhere. -/
structure ElementShows (route : Element) (root : Step) (own : Hits) (below : List Hits) :
    Prop where
  root_count : Counts route.tag own
  names : (carriers (Element.tagsAll route.content)).map Tag.localName =
    (Step.rowsAll 1 root.children).map (·.name.toList)
  counts : List.Forall₂ Counts (carriers (Element.tagsAll route.content)) below

end Dump

/-- The text of a dump and the hits that it shows for the steps of a route, in pre-order. -/
structure RouteDump where
  text : String
  hits : List Hits

namespace RouteDump

open Markup (Element)

/-- How often a dump shows the step at a position in pre-order as hit. -/
def count (d : RouteDump) (i : Nat) : Nat := ((d.hits[i]?).map Hits.count).getD 0

/-- The dump is a well-formed document in which exactly one `route` element has the wanted id
and stands in no other such element, and this element shows the steps of `root` with the hits
of the dump. -/
def Shows (d : RouteDump) (routeId : String) (root : Step) : Prop :=
  ∃ forest route own below, Markup.WellFormed d.text.toList forest ∧
    Element.outermostAll (Dump.opens routeId) forest = [route] ∧
    d.hits = own :: below ∧ Dump.ElementShows route root own below

end RouteDump

namespace Dump

open Markup (Tag Element)

theorem record_of_counts {tag : Tag} (h : tag.attributes.2 = none) {hits : Hits}
    (hcount : Counts tag hits) :
    record tag = pure (some
      ⟨if tag.localName = routeName then inputName else String.ofList tag.localName, hits⟩) := by
  obtain ⟨text, hlookup, hwrites⟩ := hcount
  have hparse : Hits.parse? text = some hits := by
    rw [Hits.parse?_of_writes hwrites, Hits.ofNat?_count]
  rw [record, value?, Tag.find?_eq_lookup h, hlookup]
  simp only [bind, Except.bind, hparse]

theorem record_of_lookup_eq_none {tag : Tag} (h : tag.attributes.2 = none)
    (hnone : tag.lookup totalKey = none) : record tag = pure none := by
  rw [record, value?, Tag.find?_eq_lookup h, hnone]
  rfl

/-- Tags whose carriers of a count have the given names, none of them `route`, give the trace
with these names and counts. -/
theorem recordsOf_of_counts {tags : List Tag} (hattributes : ∀ t ∈ tags, t.attributes.2 = none)
    {names : List String} {hits : List Hits}
    (hnames : (carriers tags).map Tag.localName = names.map String.toList)
    (hcounts : List.Forall₂ Counts (carriers tags) hits)
    (hroute : ∀ name ∈ names, name.toList ≠ routeName) :
    recordsOf tags = pure (traceOf names hits) := by
  unfold carriers at hnames hcounts
  induction tags generalizing names hits with
  | nil =>
      cases names with
      | nil => rfl
      | cons name names => cases hnames
  | cons t tags ih =>
      have ht := hattributes t List.mem_cons_self
      have hrest := fun t' ht' => hattributes t' (List.mem_cons_of_mem t ht')
      rw [recordsOf]
      cases hlookup : t.lookup totalKey with
      | none =>
          rw [List.filter_cons_of_neg (by simp [hlookup])] at hnames hcounts
          rw [record_of_lookup_eq_none ht hlookup, ih hrest hnames hcounts hroute]
          rfl
      | some text =>
          rw [List.filter_cons_of_pos (by simp [hlookup])] at hnames hcounts
          cases names with
          | nil => cases hnames
          | cons name names =>
              obtain ⟨hname, hnames⟩ := List.cons_eq_cons.mp hnames
              cases hcounts with
              | cons hcount hcounts =>
                  have hne : t.localName ≠ routeName := by
                    rw [hname]
                    exact hroute name List.mem_cons_self
                  have htail := ih hrest hnames hcounts fun n hn =>
                    hroute n (List.mem_cons_of_mem name hn)
                  rw [record_of_counts ht hcount, if_neg hne, hname, String.ofList_toList, htail]
                  rfl

/-- A dump that shows the route of a chain is read as a trace with one record for each step. -/
theorem records_of_shows {c : Chain} (hfrom : c.start.name = inputName) {routeId : String}
    {d : RouteDump} (h : d.Shows routeId c.steps) :
    records routeId d.text = pure (traceOf c.steps.names d.hits) ∧
      d.hits.length = c.steps.size := by
  obtain ⟨forest, route, own, below, hwf, hroute, hhits, hshows⟩ := h
  have hmem : route ∈ Element.outermostAll (opens routeId) forest := by
    rw [hroute]
    exact List.mem_cons_self
  obtain ⟨hopens, htags⟩ := Element.of_mem_outermostAll hmem
  have hattributes : ∀ t ∈ route.tags, t.attributes.2 = none := fun t ht =>
    hwf.attributes t (htags t ht)
  rw [Element.tags_eq] at hattributes
  have hlocal : route.tag.localName = routeName := by
    unfold opens at hopens
    simp only [Bool.and_eq_true, decide_eq_true_eq] at hopens
    exact hopens.1
  have hbelow : ∀ name ∈ (Step.rowsAll 1 c.steps.children).map Row.name,
      name.toList ≠ routeName := by
    intro name hname heq
    obtain ⟨r, hr, rfl⟩ := List.mem_map.mp hname
    have hstep := c.isStep_of_mem_rows hr
    have hroute : r.name = "route" := String.toList_inj.mp heq
    rw [hroute] at hstep
    exact absurd hstep (by decide)
  have hnames : c.steps.names =
      inputName :: (Step.rowsAll 1 c.steps.children).map Row.name := by
    rw [← hfrom, ← c.name_steps]
    cases c.steps
    rfl
  have hroot := hattributes route.tag List.mem_cons_self
  have hrest := recordsOf_of_counts
    (fun t ht => hattributes t (List.mem_cons_of_mem route.tag ht))
    (by rw [hshows.names, List.map_map]; rfl) hshows.counts hbelow
  constructor
  · rw [records_of_wellFormed routeId hwf hroute, Element.tags_eq, recordsOf,
      record_of_counts hroot hshows.root_count, if_pos hlocal, hrest, hnames, hhits]
    rfl
  · have hcarriers := hshows.counts.length_eq
    have hlength := congrArg List.length hshows.names
    rw [List.length_map, List.length_map, Step.length_rowsAll] at hlength
    rw [hhits, List.length_cons, ← hcarriers, hlength]
    cases c.steps
    rw [Step.size, Nat.add_comm]
    rfl

end Dump

/-! ### Merging the traces of dumps -/

theorem mapM_eq_pure {α β ε : Type} {f : α → Except ε β} {g : α → β} {l : List α}
    (h : ∀ a ∈ l, f a = pure (g a)) : l.mapM f = pure (l.map g) := by
  induction l with
  | nil => rfl
  | cons a l ih =>
      rw [List.mapM_cons, h a List.mem_cons_self,
        ih fun b hb => h b (List.mem_cons_of_mem a hb)]
      rfl

namespace RouteDump

variable {names : List String} {dumps : List RouteDump}

theorem countAt_traceOf {d : RouteDump} {i : Nat} {name : String} (hname : names[i]? = some name) :
    Trace.countAt (traceOf names d.hits) i name = d.count i := by
  unfold Trace.countAt traceOf count
  rw [List.getElem?_zipWith, hname]
  cases d.hits[i]? <;> simp

theorem totalAt_map_traceOf {i : Nat} {name : String} (hname : names[i]? = some name) :
    Trace.totalAt (dumps.map fun d => traceOf names d.hits) i name =
      (dumps.map (·.count i)).sum := by
  induction dumps with
  | nil => rfl
  | cons d dumps ih =>
      rw [List.map_cons, List.map_cons, List.sum_cons, Trace.totalAt, List.foldr_cons,
        ← Trace.totalAt, ih, countAt_traceOf hname]

theorem nameAt_map_traceOf (hne : dumps ≠ [])
    (hlength : ∀ d ∈ dumps, d.hits.length = names.length) (i : Nat) :
    Trace.nameAt (dumps.map fun d => traceOf names d.hits) i = names[i]? := by
  cases dumps with
  | nil => exact absurd rfl hne
  | cons d dumps =>
      have hfirst : ((traceOf names d.hits)[i]?).map Record.name = names[i]? := by
        rw [← List.getElem?_map, map_name_traceOf (hlength d List.mem_cons_self)]
      rw [List.map_cons, Trace.nameAt, List.findSome?_cons, hfirst]
      cases hi : names[i]? with
      | some name => rfl
      | none =>
          refine List.findSome?_eq_none_iff.mpr fun t ht => ?_
          obtain ⟨d', hd', rfl⟩ := List.mem_map.mp ht
          rw [← List.getElem?_map, map_name_traceOf (hlength d' (List.mem_cons_of_mem d hd')), hi]

/-- Merging traces with the same names adds up the counts of every position. -/
theorem getElem?_mergeAll_traceOf (hne : dumps ≠ [])
    (hlength : ∀ d ∈ dumps, d.hits.length = names.length) (i : Nat) :
    (Trace.mergeAll (dumps.map fun d => traceOf names d.hits))[i]? =
      names[i]?.map fun name => ⟨name, .ofNat (dumps.map (·.count i)).sum⟩ := by
  rw [Trace.getElem?_mergeAll, nameAt_map_traceOf hne hlength]
  cases hi : names[i]? with
  | none => rfl
  | some name => rw [Option.map_some, Option.map_some, totalAt_map_traceOf hi]

end RouteDump

/-! ### Coverage of merged traces -/

theorem hits_aggregate_nil (root : Step) {i : Nat} {e : Entry}
    (he : (aggregate root [])[i]? = some e) : e.hits = .zero := by
  rw [aggregate_eq_cover] at he
  exact hits_cover_nil (root.rows 0) e (List.mem_of_getElem? he)

/-- The coverage of a route by merged dumps shows, for each step, the capped sum of the counts
of the dumps. -/
theorem count_of_getElem?_aggregate {root : Step} {dumps : List RouteDump}
    (hlength : ∀ d ∈ dumps, d.hits.length = root.size) {i : Nat} {e : Entry}
    (he : (aggregate root
      (Trace.mergeAll (dumps.map fun d => traceOf root.names d.hits)))[i]? = some e) :
    e.hits.count = min Hits.limit (dumps.map (·.count i)).sum := by
  by_cases hne : dumps = []
  · subst hne
    rw [hits_aggregate_nil root he]
    rfl
  · have hlength' : ∀ d ∈ dumps, d.hits.length = root.names.length := by
      intro d hd
      rw [root.length_names, hlength d hd]
    have hmerged := RouteDump.getElem?_mergeAll_traceOf hne hlength'
    have hnames : (Trace.mergeAll (dumps.map fun d => traceOf root.names d.hits)).map
        Record.name = (root.rows 0).map Row.name := by
      apply List.ext_getElem?
      intro j
      rw [List.getElem?_map, hmerged j, ← Step.names]
      cases root.names[j]? <;> rfl
    rw [aggregate_eq_cover, cover_of_names hnames, List.getElem?_zipWith, hmerged i, Step.names,
      List.getElem?_map] at he
    cases hrow : (root.rows 0)[i]? with
    | none =>
        rw [hrow] at he
        cases he
    | some r =>
        rw [hrow] at he
        cases he
        rfl

theorem pos_min_sum_iff (dumps : List RouteDump) (i : Nat) :
    0 < min Hits.limit (dumps.map (·.count i)).sum ↔ ∃ d ∈ dumps, 0 < d.count i := by
  have hlimit : 0 < Hits.limit := by decide
  induction dumps with
  | nil => simp
  | cons d dumps ih =>
      rw [List.map_cons, List.sum_cons]
      constructor
      · intro hpos
        by_cases hd : 0 < d.count i
        · exact ⟨d, List.mem_cons_self, hd⟩
        · obtain ⟨d', hd', hpos'⟩ := ih.mp (by omega)
          exact ⟨d', List.mem_cons_of_mem d hd', hpos'⟩
      · rintro ⟨d', hd', hpos⟩
        rcases List.mem_cons.mp hd' with rfl | hd'
        · omega
        · have := ih.mpr ⟨d', hd', hpos⟩
          omega

/-- The coverage of a route by the dumps of several runs.  Every dump that shows the route is
read, and the merged traces give one entry for each step, in pre-order, whose count is the sum
of the counts that the dumps show for the step, stopped at the limit.  So a step is covered
when one of the dumps shows it as hit, and the route is reported as fully covered when this
holds for each step. -/
theorem aggregate_of_dumps {c : Chain} (hfrom : c.start.name = "from") {routeId : String}
    {dumps : List RouteDump} (hshows : ∀ d ∈ dumps, d.Shows routeId c.steps) :
    ∃ traces, dumps.mapM (fun d => Dump.records routeId d.text) = .ok traces ∧
      (aggregate c.steps (Trace.mergeAll traces)).map Entry.row = c.steps.rows 0 ∧
      (∀ i e, (aggregate c.steps (Trace.mergeAll traces))[i]? = some e →
        e.hits.count = min Hits.limit (dumps.map (·.count i)).sum ∧
        (e.isCovered = true ↔ ∃ d ∈ dumps, 0 < d.count i)) ∧
      ∀ file, (render file routeId
          (aggregate c.steps (Trace.mergeAll traces))).isFullyCovered = true ↔
        ∀ i < c.steps.size, ∃ d ∈ dumps, 0 < d.count i := by
  have hrecords := fun d hd => Dump.records_of_shows hfrom (hshows d hd)
  have hcount {i : Nat} {e : Entry} := count_of_getElem?_aggregate (i := i) (e := e)
    fun d hd => (hrecords d hd).2
  have hcovered : ∀ i e, (aggregate c.steps
      (Trace.mergeAll (dumps.map fun d => traceOf c.steps.names d.hits)))[i]? = some e →
      (e.isCovered = true ↔ ∃ d ∈ dumps, 0 < d.count i) := by
    intro i e he
    rw [Entry.isCovered, decide_eq_true_eq, hcount he]
    exact pos_min_sum_iff dumps i
  refine ⟨_, mapM_eq_pure fun d hd => (hrecords d hd).1, map_row_aggregate _ _,
    fun i e he => ⟨hcount he, hcovered i e he⟩, fun file => ?_⟩
  rw [isFullyCovered_render_iff]
  constructor
  · intro hall i hi
    rw [← length_aggregate c.steps] at hi
    have he := List.getElem?_eq_getElem hi
    exact (hcovered i _ he).mp (hall _ (List.getElem_mem hi))
  · intro hall e he
    obtain ⟨i, hi⟩ := List.mem_iff_getElem?.mp he
    have hlt := (List.getElem?_eq_some_iff.mp hi).1
    rw [length_aggregate] at hlt
    exact (hcovered i e hi).mpr (hall i hlt)

/-- A chain with a choice between two branches. -/
def branchChain : Chain where
  start := ⟨"from", 1, some "direct:a"⟩
  rest :=
    [⟨"choice", 2, none⟩, ⟨"when", 3, none⟩, ⟨"to", 4, some "mock:a"⟩, ⟨"otherwise", 5, none⟩,
      ⟨"to", 6, some "mock:b"⟩, ⟨"end", 7, none⟩]

def countTag (content : String) (hits : List Hits) (i : Nat) : Markup.Tag :=
  ⟨content.toList ++ " exchangesTotal=\"".toList ++
    Nat.toDigits 10 (hits.getD i .zero).count ++ ['"']⟩

/-- An element that shows the route of `branchChain`. -/
def branchRoute (hits : List Hits) : Markup.Element :=
  .nested (countTag "route id=\"r\"" hits 0)
    [.single ⟨"note".toList⟩,
      .nested (countTag "choice" hits 1)
        [.nested (countTag "when" hits 2) [.single (countTag "to" hits 3)],
          .nested (countTag "otherwise" hits 4) [.single (countTag "to" hits 5)]]]

/-- A document that shows the route of `branchChain`, behind another route whose count is
none. -/
def branchText (hits : List Hits) : List Char :=
  "<routes><route id=\"x\" exchangesTotal=\"no\"/><".toList ++
    (countTag "route id=\"r\"" hits 0).content ++ "><note/><".toList ++
    (countTag "choice" hits 1).content ++ "><".toList ++
    (countTag "when" hits 2).content ++ "><".toList ++
    (countTag "to" hits 3).content ++ "/></when><".toList ++
    (countTag "otherwise" hits 4).content ++ "><".toList ++
    (countTag "to" hits 5).content ++ "/></otherwise></choice></route></routes>".toList

/-- The dump of a run with its hits for `branchChain`. -/
def branchDump (hits : List Hits) : RouteDump := ⟨.ofList (branchText hits), hits⟩

/-- The hits of two runs, one for each of the two branches. -/
def branchHits : List (List Hits) :=
  [[.ofNat 1, .ofNat 1, .ofNat Hits.limit, .ofNat 1, .zero, .zero],
    [.ofNat 2, .ofNat 2, .ofNat 1, .zero, .ofNat 2, .ofNat 2]]

theorem aggregate_of_branchDumps :
    branchChain.start.name = "from" ∧
      (∀ d ∈ branchHits.map branchDump, d.Shows "r" branchChain.steps) ∧
      ∃ traces,
        (branchHits.map branchDump).mapM (fun d => Dump.records "r" d.text) = .ok traces ∧
        ∀ file, (render file "r"
          (aggregate branchChain.steps (Trace.mergeAll traces))).isFullyCovered = true := by
  have hroutes : Dump.opens "r" ⟨"routes".toList⟩ = false := by decide +kernel
  have hother : Dump.opens "r" ⟨"route id=\"x\" exchangesTotal=\"no\"".toList⟩ = false := by
    decide +kernel
  have houtermost {route : Markup.Element} (h : Dump.opens "r" route.tag = true) :
      Markup.Element.outermostAll (Dump.opens "r") [.nested ⟨"routes".toList⟩
        [.single ⟨"route id=\"x\" exchangesTotal=\"no\"".toList⟩, route]] = [route] := by
    simp only [Markup.Element.outermostAll, Markup.Element.outermost, hroutes, hother,
      Markup.Element.outermost_of_tag h]
    rfl
  have hshows : ∀ d ∈ branchHits.map branchDump, d.Shows "r" branchChain.steps := by
    intro d hd
    obtain ⟨hits, hhits, rfl⟩ := List.mem_map.mp hd
    have htext : (branchDump hits).text.toList = branchText hits := String.toList_ofList
    unfold RouteDump.Shows
    rw [htext]
    refine ⟨_, branchRoute hits, hits.getD 0 .zero, hits.tail, ⟨⟨[], ?_⟩, ?_, ?_⟩,
      houtermost ?_, ?_, ⟨_, ?_, Hits.writes_toDigits _⟩, ?_, Dump.forall₂_counts ?_⟩
    all_goals
      clear hd htext
      revert hits
      decide +kernel
  obtain ⟨traces, htraces, -, -, hcovered⟩ := aggregate_of_dumps (c := branchChain) rfl hshows
  exact ⟨rfl, hshows, traces, htraces, fun file => (hcovered file).mpr (by decide)⟩

end RouteCoverage
