import RouteCoverage.Markup.Event

/-!
# Documents as forests of elements

The reader of a document gives events one by one.  Here a document is seen as a forest: an
element has a tag and the elements between its start and its end, and a tag that is both start
and end is an element without content.  `Reads` says that a text is read as a forest, and
`WellFormed` that this happens without a fault, neither in the document nor in the attributes
of a tag.
-/

namespace RouteCoverage.Markup

/-! ### Looking for attributes -/

namespace Tag

/-- The value of the first attribute with a key, as written. -/
def lookup (t : Tag) (key : List Char) : Option (List Char) :=
  (t.attributes.1.find? (·.key = key)).map (·.value)

/-- The fault that is met when a key is looked for: attributes are read up to the key, so a fault
after it is not met. -/
def faultBefore (t : Tag) (key : List Char) : Option AttributeError :=
  match t.lookup key with
  | some _ => none
  | none => t.attributes.2

theorem find?_of_faultBefore {t : Tag} {key : List Char} {e : AttributeError}
    (h : t.faultBefore key = some e) : t.find? key = .error e ∧ t.lookup key = none := by
  unfold faultBefore at h
  cases hlookup : t.lookup key with
  | some value =>
      rw [hlookup] at h
      cases h
  | none =>
      rw [hlookup] at h
      dsimp only at h
      refine ⟨?_, rfl⟩
      unfold find?
      rw [Option.map_eq_none_iff.mp hlookup, h]

theorem find?_of_faultBefore_eq_none {t : Tag} {key : List Char}
    (h : t.faultBefore key = none) : t.find? key = .ok (t.lookup key) := by
  unfold faultBefore at h
  unfold find?
  unfold lookup at h ⊢
  cases hfind : t.attributes.1.find? (·.key = key) with
  | some a => rfl
  | none =>
      rw [hfind] at h
      dsimp only [Option.map_none] at h
      rw [h]
      rfl

/-- Looking for a key meets no fault when there is none. -/
theorem find?_eq_lookup {t : Tag} (h : t.attributes.2 = none) (key : List Char) :
    t.find? key = .ok (t.lookup key) := by
  refine find?_of_faultBefore_eq_none ?_
  unfold faultBefore
  split
  · rfl
  · exact h

end Tag

/-! ### Elements -/

/-- An element of a document. -/
inductive Element where
  /-- a tag that is start and end in one -/
  | single (tag : Tag)
  /-- a start tag, the elements after it, and its end tag -/
  | nested (tag : Tag) (content : List Element)

namespace Element

def tag : Element → Tag
  | single tag => tag
  | nested tag _ => tag

/-- The elements directly inside an element. -/
def content : Element → List Element
  | single _ => []
  | nested _ content => content

mutual

def events : Element → List Event
  | single tag => [.empty tag]
  | nested tag content => .start tag :: eventsAll content ++ [.close tag.name]

def eventsAll : List Element → List Event
  | [] => []
  | e :: rest => events e ++ eventsAll rest

end

mutual

/-- The tags of an element and of everything inside it, in document order. -/
def tags : Element → List Tag
  | single tag => [tag]
  | nested tag content => tag :: tagsAll content

/-- The tags of a forest in document order. -/
def tagsAll : List Element → List Tag
  | [] => []
  | e :: rest => tags e ++ tagsAll rest

end

theorem tags_eq (e : Element) : e.tags = e.tag :: tagsAll e.content := by
  cases e <;> rfl

theorem tagsAll_append (f g : List Element) : tagsAll (f ++ g) = tagsAll f ++ tagsAll g := by
  induction f with
  | nil => rfl
  | cons e f ih => rw [List.cons_append, tagsAll, ih, tagsAll, List.append_assoc]

theorem tagsAll_eq_flatMap (f : List Element) : tagsAll f = f.flatMap tags := by
  induction f with
  | nil => rfl
  | cons e f ih => rw [tagsAll, ih, List.flatMap_cons]

mutual

/-- The outermost elements whose tag satisfies `p`: those that stand in no other one. -/
def outermost (p : Tag → Bool) : Element → List Element
  | single tag => if p tag then [single tag] else []
  | nested tag content =>
      if p tag then [nested tag content] else outermostAll p content

/-- The outermost elements of a forest whose tag satisfies `p`, in document order. -/
def outermostAll (p : Tag → Bool) : List Element → List Element
  | [] => []
  | e :: rest => outermost p e ++ outermostAll p rest

end

theorem outermost_of_tag {p : Tag → Bool} {e : Element} (h : p e.tag = true) :
    outermost p e = [e] := by
  cases e with
  | single tag => exact if_pos h
  | nested tag content => exact if_pos h

mutual

/-- An outermost element with a property has it, and its tags are tags of the document. -/
theorem of_mem_outermost {p : Tag → Bool} {e : Element} :
    ∀ {d : Element}, e ∈ outermost p d → p e.tag = true ∧ ∀ t ∈ e.tags, t ∈ d.tags
  | single tag, he => by
      rw [outermost] at he
      split at he
      · rename_i hp
        obtain rfl := List.mem_singleton.mp he
        exact ⟨hp, fun t ht => ht⟩
      · cases he
  | nested tag content, he => by
      rw [outermost] at he
      split at he
      · rename_i hp
        obtain rfl := List.mem_singleton.mp he
        exact ⟨hp, fun t ht => ht⟩
      · obtain ⟨hp, hsub⟩ := of_mem_outermostAll he
        exact ⟨hp, fun t ht => List.mem_cons_of_mem tag (hsub t ht)⟩

theorem of_mem_outermostAll {p : Tag → Bool} {e : Element} :
    ∀ {f : List Element}, e ∈ outermostAll p f → p e.tag = true ∧ ∀ t ∈ e.tags, t ∈ tagsAll f
  | [], he => by cases he
  | d :: rest, he => by
      rw [outermostAll] at he
      rw [tagsAll]
      rcases List.mem_append.mp he with he | he
      · obtain ⟨hp, hsub⟩ := of_mem_outermost he
        exact ⟨hp, fun t ht => List.mem_append_left _ (hsub t ht)⟩
      · obtain ⟨hp, hsub⟩ := of_mem_outermostAll he
        exact ⟨hp, fun t ht => List.mem_append_right _ (hsub t ht)⟩

end

end Element

/-! ### Documents -/

/-- The text of a document is read as a forest: its events, those without meaning left out, are
the events of the forest once the elements that are still open at the end of the text, or at
its first fault, are closed. -/
def Reads (document : List Char) (forest : List Element) : Prop :=
  ∃ closings : List (List Char),
    (Markup.events document).1.filter (· ≠ .skipped) ++ closings.map .close =
      Element.eventsAll forest

/-- The text of a document is read as a forest, without a fault in the document or in the
attributes of its tags. -/
structure WellFormed (document : List Char) (forest : List Element) : Prop where
  reads : Reads document forest
  noFault : (Markup.events document).2 = none
  attributes : ∀ tag ∈ Element.tagsAll forest, tag.attributes.2 = none

end RouteCoverage.Markup
