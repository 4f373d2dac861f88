import Mathlib.Data.List.Basic
import RouteCoverage.Dsl.Routes
import RouteCoverage.Proofs.Dsl.Order
import RouteCoverage.Proofs.Dump.Reading
import RouteCoverage.Proofs.Markup.Nesting
import RouteCoverage.Source.File

/-!
# Route ids in sources and in dumps

The id of a route is written twice: in the source as a literal, where quotes and backslashes are
escaped, and in a dump as an attribute, where the characters of markup are.  Neither reader
undoes the escapes.  So the two texts agree if and only if no character of the id is escaped in
either of them (`found_eq_attributeText_iff`): such a plain id finds the elements that are written
for it and no others, and any other id never finds the elements written for it
(`records_of_literalId`).
-/

namespace RouteCoverage.RouteId

open Source (Node)
open Markup (Tag Element)

/-- A character of an id as it is written in a literal. -/
def literalChar (c : Char) : List Char := if c = '"' ∨ c = '\\' then ['\\', c] else [c]

/-- The text of the literal that denotes an id. -/
def literal (v : List Char) : List Char := '"' :: (v.flatMap literalChar ++ ['"'])

/-- The characters of markup, each with the name of its entity. -/
def entities : List (Char × String) :=
  [('&', "amp"), ('<', "lt"), ('>', "gt"), ('"', "quot"), ('\'', "apos")]

/-- A character of an id as it is written in an attribute. -/
def attributeChar (c : Char) : List Char :=
  match entities.lookup c with
  | some name => '&' :: (name.toList ++ [';'])
  | none => [c]

/-- The text of an attribute whose value is an id. -/
def attributeText (v : List Char) : List Char := v.flatMap attributeChar

/-- No character of the id is escaped, in a literal or in an attribute. -/
def Plain (v : List Char) : Prop := ∀ c ∈ v, c ≠ '\\' ∧ entities.lookup c = none

instance (v : List Char) : Decidable (Plain v) := List.decidableBAll _ v

/-- The id that is found where a literal denotes `v`. -/
def found (v : List Char) : String := Call.unquoted (String.ofList (literal v))

/-! ### The text of a literal without its quotes -/

theorem count_dropWhile_beq {c q : Char} (h : c ≠ q) (s : List Char) :
    (s.dropWhile (· == q)).count c = s.count c := by
  induction s with
  | nil => rfl
  | cons d s ih =>
      rw [List.dropWhile_cons]
      split
      · next hd =>
          rw [ih, List.count_cons_of_ne]
          rintro rfl
          exact h (by simpa using hd)
      · rfl

theorem dropWhile_beq_of_not_mem {q : Char} {s : List Char} (h : q ∉ s) :
    s.dropWhile (· == q) = s := by
  cases s with
  | nil => rfl
  | cons c s =>
      exact List.dropWhile_cons_of_neg fun hc => List.ne_of_not_mem_cons h (eq_of_beq hc).symm

/-- Only quotes are taken off. -/
theorem count_found {c : Char} (h : c ≠ '"') (v : List Char) :
    (found v).toList.count c = (v.flatMap literalChar).count c := by
  unfold found Call.unquoted literal
  simp only [String.toList_ofList, List.count_reverse, count_dropWhile_beq h, List.count_cons,
    List.count_append, List.count_nil]
  simp [h.symm]

theorem toList_found {v : List Char} (hquote : '"' ∉ v) (hv : v.flatMap literalChar = v) :
    (found v).toList = v := by
  unfold found Call.unquoted literal
  rw [hv, String.toList_ofList, String.toList_ofList, List.dropWhile_cons_of_pos (by rfl)]
  cases v with
  | nil => rfl
  | cons c v =>
      have hc : ¬ (c == '"') = true := fun hc => List.ne_of_not_mem_cons hquote (eq_of_beq hc).symm
      rw [List.cons_append, List.dropWhile_cons_of_neg (p := (· == '"')) hc, ← List.cons_append,
        List.reverse_append, List.reverse_singleton, List.singleton_append,
        List.dropWhile_cons_of_pos (by rfl),
        dropWhile_beq_of_not_mem (fun h => hquote (List.mem_reverse.mp h)), List.reverse_reverse]

/-! ### Counting what is escaped -/

theorem flatMap_literalChar {v : List Char} (h : ∀ c ∈ v, c ≠ '"' ∧ c ≠ '\\') :
    v.flatMap literalChar = v := by
  induction v with
  | nil => rfl
  | cons c v ih =>
      obtain ⟨hc, hv⟩ := List.forall_mem_cons.mp h
      rw [List.flatMap_cons, ih hv, literalChar, if_neg (not_or.mpr hc), List.singleton_append]

theorem count_flatMap_literalChar (v : List Char) :
    (v.flatMap literalChar).count '\\' = 2 * v.count '\\' + v.count '"' := by
  induction v with
  | nil => rfl
  | cons c v ih =>
      rw [List.flatMap_cons, List.count_append, ih, List.count_cons, List.count_cons, literalChar]
      by_cases hquote : c = '"'
      · subst hquote
        simp
        omega
      · by_cases hbackslash : c = '\\'
        · subst hbackslash
          simp
          omega
        · simp [hquote, hbackslash]

theorem mem_entities_of_lookup {c : Char} {name : String} (h : entities.lookup c = some name) :
    (c, name) ∈ entities := by
  obtain ⟨before, after, hentities, -⟩ := List.lookup_eq_some_iff.mp h
  rw [hentities]
  exact List.mem_append_right before List.mem_cons_self

/-- No escape in an attribute puts in a backslash, or takes one away. -/
theorem count_attributeText (v : List Char) :
    (attributeText v).count '\\' = v.count '\\' := by
  have hnames : ∀ p ∈ entities, p.1 ≠ '\\' ∧ ('&' :: (p.2.toList ++ [';'])).count '\\' = 0 := by
    decide
  unfold attributeText
  induction v with
  | nil => rfl
  | cons c v ih =>
      rw [List.flatMap_cons, List.count_append, ih, List.count_cons, Nat.add_comm, attributeChar]
      congr 1
      cases hname : entities.lookup c with
      | none => rw [List.count_singleton]
      | some name =>
          obtain ⟨hc, hcount⟩ := hnames _ (mem_entities_of_lookup hname)
          rw [hcount, if_neg (by simpa using hc)]

theorem length_le_attributeText (v : List Char) : v.length ≤ (attributeText v).length := by
  unfold attributeText
  induction v with
  | nil => exact Nat.le_refl 0
  | cons c v ih =>
      have hchar : 1 ≤ (attributeChar c).length := by
        unfold attributeChar
        cases entities.lookup c <;> simp
      rw [List.flatMap_cons, List.length_append, List.length_cons]
      omega

theorem attributeText_eq_self_iff {v : List Char} :
    attributeText v = v ↔ ∀ c ∈ v, entities.lookup c = none := by
  induction v with
  | nil => simp [attributeText]
  | cons c v ih =>
      have hcons : attributeText (c :: v) = attributeChar c ++ attributeText v := rfl
      rw [hcons, List.forall_mem_cons, attributeChar]
      cases entities.lookup c with
      | none => simpa using ih
      | some name =>
          -- the rest of the entity would have to fit into the rest of the id
          have htail : name.toList ++ ';' :: attributeText v ≠ v := by
            intro h
            have hfit := congrArg List.length h
            have hlong := length_le_attributeText v
            rw [List.length_append, List.length_cons] at hfit
            omega
          simp [htail]

theorem Plain.not_mem {v : List Char} (h : Plain v) {c : Char} (hc : entities.lookup c ≠ none) :
    c ∉ v := fun hmem => hc (h c hmem).2

/-- Where a literal denotes `v`, what is found is the text of the attribute whose value is `v` if
and only if nothing is escaped. -/
theorem found_eq_attributeText_iff {v : List Char} :
    (found v).toList = attributeText v ↔ Plain v := by
  constructor
  · intro h
    have hcount := count_found (c := '\\') (by decide) v
    rw [h, count_attributeText, count_flatMap_literalChar] at hcount
    have hquote : '"' ∉ v := List.count_eq_zero.mp (by omega)
    have hbackslash : '\\' ∉ v := List.count_eq_zero.mp (by omega)
    have hliteral : v.flatMap literalChar = v := flatMap_literalChar fun c hc =>
      ⟨fun he => hquote (he ▸ hc), fun he => hbackslash (he ▸ hc)⟩
    rw [toList_found hquote hliteral] at h
    exact fun c hc => ⟨fun he => hbackslash (he ▸ hc), attributeText_eq_self_iff.mp h.symm c hc⟩
  · intro h
    have hquote : '"' ∉ v := h.not_mem (by decide)
    have hliteral : v.flatMap literalChar = v :=
      flatMap_literalChar fun c hc => ⟨fun he => hquote (he ▸ hc), (h c hc).1⟩
    rw [toList_found hquote hliteral, attributeText_eq_self_iff.mpr fun c hc => (h c hc).2]

theorem eq_of_attributeText_eq {v w : List Char} (hv : Plain v) (h : attributeText w = v) :
    w = v := by
  have hw : ∀ c ∈ w, entities.lookup c = none := by
    intro c hc
    cases hname : entities.lookup c with
    | none => rfl
    | some name =>
        have hand : '&' ∈ attributeText w := List.mem_flatMap.mpr
          ⟨c, hc, by rw [attributeChar, hname]; exact List.mem_cons_self⟩
        exact absurd (h ▸ hand) (hv.not_mem (by decide))
  rw [← h, attributeText_eq_self_iff.mpr hw]

/-! ### Routes in sources and in dumps -/

/-- The first argument of an invocation is the literal that denotes an id. -/
def Denotes (invocation : Node) (v : List Char) : Prop :=
  ∃ arguments first, invocation.child? .arguments = some arguments ∧
    arguments.children.head? = some first ∧ first.kind = .stringLiteral ∧
    first.text = String.ofList (literal v)

/-- A chain sets the id of its route by a literal that denotes it, and by none before that. -/
def SetBy (chain : Chain) (v : List Char) : Prop :=
  ∃ before invocation after, chain.rest = before ++ Call.ofNode invocation :: after ∧
    (Call.ofNode invocation).role = .routeId ∧ Denotes invocation v ∧
    ∀ call ∈ before, call.role = .routeId → call.literal = none

/-- Whether a tag opens a route element whose `id` is written for an id. -/
def writtenFor (v : List Char) (tag : Tag) : Bool :=
  decide (tag.localName = Dump.routeName) && tag.lookup Dump.idKey == some (attributeText v)

theorem literal_ofNode {invocation : Node} {v : List Char} (h : Denotes invocation v) :
    (Call.ofNode invocation).literal = some (found v) := by
  obtain ⟨arguments, first, harguments, hfirst, hkind, htext⟩ := h
  have hliteral : Call.literal? invocation = some (found v) := by
    simp [Call.literal?, harguments, hfirst, hkind, htext, found]
  unfold Call.ofNode
  split <;> exact hliteral

theorem id_route {chain : Chain} {v : List Char} (h : SetBy chain v) (file : String) :
    (chain.route file).id = some (found v) := by
  obtain ⟨before, invocation, after, hrest, hrole, hdenotes, hbefore⟩ := h
  exact (chain.routeId_eq_some_iff _).mpr
    ⟨before, _, after, hrest, ⟨hrole, literal_ofNode hdenotes⟩, hbefore⟩

/-- An element is taken for the wanted route exactly if its `id` is written as the id found. -/
theorem opens_iff_of_writtenFor {id : String} {w : List Char} {tag : Tag}
    (h : writtenFor w tag = true) : Dump.opens id tag = true ↔ id.toList = attributeText w := by
  obtain ⟨hname, hid⟩ := Bool.and_eq_true_iff.mp h
  unfold Dump.opens
  rw [hname, Bool.true_and, eq_of_beq hid, beq_iff_eq, Option.some.injEq, eq_comm]

/-- Loading a route whose id is set by the literal that denotes `v`.  If nothing in `v` is escaped,
in a literal or in an attribute, its trace is that of the outermost elements written for `v`, and
an element written for another id is never taken for it.  If anything is, no element written for
`v` is taken for it, so a dump whose route elements are all written for `v` gives the empty
trace. -/
theorem records_of_literalId {chain : Chain} {v : List Char} (hchain : SetBy chain v)
    (file : String) {document : String} {forest : List Element}
    (hdump : Markup.WellFormed document.toList forest) :
    ∃ id, (chain.route file).id = some id ∧
      (Plain v →
        Dump.records id document =
            Dump.recordsOf (Element.tagsAll (Element.outermostAll (writtenFor v) forest)) ∧
          ∀ w, w ≠ v → ∀ tag, writtenFor w tag = true → Dump.opens id tag = false) ∧
      (¬ Plain v →
        (∀ tag, writtenFor v tag = true → Dump.opens id tag = false) ∧
          ((∀ tag ∈ Element.tagsAll forest,
              tag.localName = Dump.routeName → writtenFor v tag = true) →
            Dump.records id document = .ok [])) := by
  have hrecords := Dump.records_eq_recordsOf (found v) hdump
  refine ⟨found v, id_route hchain file, fun hplain => ⟨?_, fun w hne tag hw => ?_⟩,
    fun hplain => ⟨fun tag hv => ?_, fun hall => ?_⟩⟩
  · have hopens : Dump.opens (found v) = writtenFor v := by
      funext tag
      rw [Dump.opens, writtenFor, found_eq_attributeText_iff.mpr hplain]
    rw [hrecords, hopens]
  · refine Bool.eq_false_iff.mpr fun hopens => hne (eq_of_attributeText_eq hplain ?_)
    rw [← (opens_iff_of_writtenFor hw).mp hopens, found_eq_attributeText_iff.mpr hplain]
    exact attributeText_eq_self_iff.mpr fun c hc => (hplain c hc).2
  · exact Bool.eq_false_iff.mpr fun hopens =>
      hplain (found_eq_attributeText_iff.mp ((opens_iff_of_writtenFor hv).mp hopens))
  · have hnone : Element.outermostAll (Dump.opens (found v)) forest = [] := by
      refine List.eq_nil_iff_forall_not_mem.mpr fun e he => ?_
      obtain ⟨hopens, htags⟩ := Element.of_mem_outermostAll he
      have hmem : e.tag ∈ Element.tagsAll forest :=
        htags _ (by rw [Element.tags_eq]; exact List.mem_cons_self)
      have hname := of_decide_eq_true (Bool.and_eq_true_iff.mp hopens).1
      exact hplain (found_eq_attributeText_iff.mp
        ((opens_iff_of_writtenFor (hall _ hmem hname)).mp hopens))
    rw [hrecords, hnone]
    rfl

/-- A route whose id is given by the second call. -/
def ordersChain : Chain :=
  ⟨⟨"from", 1, none⟩, [Call.ofNode (.node .methodInvocation none 1 ""
    [.node .identifier (some .name) 1 "routeId" [],
      .node .argumentList (some .arguments) 1 "" [.leaf .stringLiteral 1 "\"orders\""]])]⟩

/-- A dump with an element for the same route. -/
def ordersDump : String :=
  "<route id='orders' exchangesTotal='2'><to exchangesTotal='1'/></route>"

/-- The id of the route finds the element. -/
theorem records_of_ordersChain :
    SetBy ordersChain "orders".toList ∧
      Markup.WellFormed ordersDump.toList (Markup.forest ordersDump.toList) ∧
      ∃ id, (ordersChain.route "Orders.java").id = some id ∧
        Dump.records id ordersDump = .ok [⟨"from", .ofNat 2⟩, ⟨"to", .ofNat 1⟩] := by
  have hchain : SetBy ordersChain "orders".toList :=
    ⟨[], _, [], rfl, by decide, ⟨_, _, rfl, rfl, rfl, rfl⟩, by simp⟩
  have hdump : Markup.WellFormed ordersDump.toList (Markup.forest ordersDump.toList) :=
    ⟨Markup.reads_forest _, by decide +kernel, by decide +kernel⟩
  obtain ⟨id, hid, hplain, -⟩ := records_of_literalId hchain "Orders.java" hdump
  refine ⟨hchain, hdump, id, hid, ?_⟩
  rw [(hplain (by decide)).1]
  decide +kernel

/-- A source with one route, whose id is set by a literal. -/
def sourceOf (v : List Char) : String :=
  "void configure() \x7b from().routeId(" ++ String.ofList (literal v) ++ "); \x7d"

/-- A dump with one element, which is written for an id. -/
def dumpOf (v : List Char) : String :=
  "<route id='" ++ String.ofList (attributeText v) ++ "' exchangesTotal='1'/>"

/-- The id `a&b` set in a source does not find the element written for it, and the id `a"` set in a
source finds the element written for `a\`. -/
theorem records_of_escapedIds :
    ((routesOfSource ⟨"R.java"⟩ (sourceOf "a&b".toList)).toOption.map (List.map Route.id) =
        some [some "a&b"] ∧
      Dump.records "a&b" (dumpOf "a&b".toList) = .ok []) ∧
    (routesOfSource ⟨"R.java"⟩ (sourceOf "a\"".toList)).toOption.map (List.map Route.id) =
        some [some "a\\"] ∧
      Dump.records "a\\" (dumpOf "a\\".toList) = .ok [⟨"from", .ofNat 1⟩] := by
  decide +kernel

end RouteCoverage.RouteId
