import RouteCoverage.Proofs.Source.Positions
import RouteCoverage.Source.File

/-!
# Objects of invocations

An invocation is made on one object at most.  The nodes of a tree are made so: only growing a node
gives the part of an object, and it gives it to one child of a new node.  So in every tree that a
source text is read into, no node has two objects (`oneObject_of_parse`).
-/

namespace RouteCoverage.Source

namespace Node

def isObject (n : Node) : Bool := n.part = some .object

def OneObject (n : Node) : Prop := ∀ m ∈ n.preorder, m.children.countP isObject ≤ 1

theorem self_mem_preorder (n : Node) : n ∈ n.preorder := by
  cases n
  exact List.mem_cons_self

theorem preorder_subset {n c : Node} (h : c ∈ n.children) : c.preorder ⊆ n.preorder := by
  obtain ⟨kind, part, line, text, children⟩ := n
  intro m hm
  rw [preorder, preorderAll_eq]
  exact List.mem_cons_of_mem _ (List.mem_flatMap.mpr ⟨c, h, hm⟩)

theorem mem_preorder_of_at? {root n : Node} {p : Position} (h : root.at? p = some n) :
    n ∈ root.preorder := by
  rw [preorder_eq]
  exact List.mem_filterMap.mpr ⟨p, mem_positions.mpr (by rw [h]; rfl), h⟩

theorem oneObject_node_iff {kind : Kind} {part : Option Part} {line : Nat} {text : String}
    {children : List Node} :
    (node kind part line text children).OneObject ↔
      children.countP isObject ≤ 1 ∧ ∀ c ∈ children, c.OneObject := by
  unfold OneObject
  rw [preorder, preorderAll_eq, List.forall_mem_cons]
  refine and_congr_right fun _ => ?_
  simp only [List.mem_flatMap]
  constructor
  · exact fun h c hc m hm => h m ⟨c, hc, hm⟩
  · rintro h m ⟨c, hc, hm⟩
    exact h c hc m hm

/-- The part that a node plays itself does not matter to what it has. -/
theorem oneObject_withPart {part : Part} {n : Node} :
    (n.withPart part).OneObject ↔ n.OneObject := by
  obtain ⟨kind, own, line, text, children⟩ := n
  rw [withPart, oneObject_node_iff, oneObject_node_iff]

theorem oneObject_leaf (kind : Kind) (line : Nat) (text : String) :
    (leaf kind line text).OneObject :=
  oneObject_node_iff.mpr ⟨Nat.zero_le _, fun _ hc => nomatch hc⟩

end Node

open Node (isObject)

namespace Outcome

variable {o : Outcome} {q : Place}

theorem place_andThen {next : Place → Outcome} (h : (o.andThen next).place = some q) :
    ∃ p, o.place = some p ∧ (next p).place = some q := by
  unfold andThen at h
  cases hp : o.place with
  | none =>
      rw [hp] at h
      exact absurd (hp.symm.trans h) (by simp)
  | some p =>
      rw [hp] at h
      exact ⟨p, rfl, h⟩

theorem place_orElse {other : Unit → Outcome} (h : (o.orElse other).place = some q) :
    o.place = some q ∨ (other ()).place = some q := by
  unfold orElse at h
  cases hp : o.place with
  | none =>
      rw [hp] at h
      exact .inr h
  | some p =>
      rw [hp] at h
      exact .inl (hp.symm.trans h)

end Outcome

/-! ### Reading adds no objects -/

/-- At most `k` of some nodes are objects, and none of the nodes has two objects in it. -/
structure Sparse (k : Nat) (nodes : List Node) : Prop where
  count : nodes.countP isObject ≤ k
  inner : ∀ n ∈ nodes, n.OneObject

/-- Reading on from a place adds no objects to the nodes there. -/
def Keeps (read : Place → Outcome) : Prop :=
  ∀ k p q, Sparse k p.nodes → (read p).place = some q → Sparse k q.nodes

section

variable {k : Nat} {p q : Place} {n : Node} {nodes before : List Node} {tokens : Array Token}

/-- A node that is no object may be added. -/
theorem Sparse.cons (h : Sparse k nodes) (hn : n.OneObject) (hpart : n.isObject = false) :
    Sparse k (n :: nodes) where
  count := by
    rw [List.countP_cons_of_neg (by rw [hpart]; exact Bool.false_ne_true)]
    exact h.count
  inner := List.forall_mem_cons.mpr ⟨hn, h.inner⟩

theorem Sparse.tail (h : Sparse k (n :: before)) : Sparse k before where
  count := Nat.le_trans (List.sublist_cons_self n before).countP_le h.count
  inner := (List.forall_mem_cons.mp h.inner).2

theorem sparse_nil : Sparse 0 [] := ⟨Nat.le_refl 0, fun _ hn => absurd hn List.not_mem_nil⟩

theorem Sparse.mono {j : Nat} (h : Sparse j nodes) (hle : j ≤ k) : Sparse k nodes :=
  ⟨Nat.le_trans h.count hle, h.inner⟩

theorem sparse_singleton (hn : n.OneObject) : Sparse 1 [n] where
  count := List.countP_le_length
  inner := List.forall_mem_singleton.mpr hn

theorem Sparse.skipComments (h : Sparse k p.nodes) : Sparse k (p.skipComments tokens).nodes := by
  induction p using Place.skipComments.induct tokens with
  | case1 p hlt t hcomment ih =>
      rw [Place.skipComments, dif_pos hlt, if_pos hcomment]
      exact ih (h.cons (Node.oneObject_leaf _ _ _) rfl)
  | case2 p hlt t hcomment =>
      rw [Place.skipComments, dif_pos hlt, if_neg hcomment]
      exact h
  | case3 p hlt =>
      rw [Place.skipComments, dif_neg hlt]
      exact h

theorem keeps_done : Keeps .done := fun _ _ _ h hq => Option.some.inj hq ▸ h

theorem keeps_take {accepts : Token → Bool} {use : Token → Place → Place}
    (huse : ∀ t k p, Sparse k p.nodes → Sparse k (use t p).nodes) :
    Keeps (Place.take tokens accepts use) := by
  intro k p q h hq
  unfold Place.take at hq
  have hskip : Sparse k (p.skipComments tokens).nodes := h.skipComments
  dsimp only at hq
  split at hq
  · next t _ =>
      split at hq
      · obtain rfl := Option.some.inj hq
        exact huse t k _ hskip
      · cases hq
  · cases hq

theorem sparse_gather {read : Place → Outcome} {kind : Kind} {line : Nat} {first : List Node}
    (hread : Keeps read) (hfirst : Sparse 1 first) (hbefore : Sparse k before)
    (hq : (p.gather kind line first before read).place = some q) : Sparse k q.nodes := by
  obtain ⟨inner, hinner, hq⟩ := Outcome.place_andThen hq
  obtain rfl := Option.some.inj hq
  have hsparse : Sparse 1 inner.nodes := hread 1 _ inner hfirst hinner
  refine hbefore.cons (Node.oneObject_node_iff.mpr ⟨?_, fun c hc => ?_⟩) rfl
  · rw [List.countP_reverse]
    exact hsparse.count
  · exact hsparse.inner c (List.mem_reverse.mp hc)

theorem keeps_andThen {read next : Place → Outcome} (hread : Keeps read) (hnext : Keeps next) :
    Keeps fun p => (read p).andThen next := by
  intro k p q h hq
  obtain ⟨m, hm, hq⟩ := Outcome.place_andThen hq
  exact hnext k m q (hread k p m h hm) hq

theorem keeps_orElse {read other : Place → Outcome} (hread : Keeps read) (hother : Keeps other) :
    Keeps fun p => (read p).orElse fun _ => other p := by
  intro k p q h hq
  rcases Outcome.place_orElse hq with hq | hq
  · exact hread k p q h hq
  · exact hother k p q h hq

/-- The last node may be given any part but that of an object. -/
theorem keeps_plays {part : Part} (hpart : part ≠ .object) :
    Keeps fun q => match q.nodes with
      | last :: before => .done ⟨q.index, last.withPart part :: before⟩
      | [] => .done q := by
  intro k p q h hq
  cases hnodes : p.nodes with
  | nil =>
      simp only [hnodes] at hq
      obtain rfl := Option.some.inj hq
      exact h
  | cons last before =>
      rw [hnodes] at h
      simp only [hnodes] at hq
      obtain rfl := Option.some.inj hq
      refine h.tail.cons (Node.oneObject_withPart.mpr (h.inner last List.mem_cons_self)) ?_
      obtain ⟨kind, own, line, text, children⟩ := last
      exact decide_eq_false fun heq => hpart (Option.some.inj heq)

/-- A node that grows may be an object inside of the new one. -/
theorem keeps_grow {read : Place → Outcome} {kind : Kind} {part : Option Part}
    (hread : Keeps read) :
    Keeps fun p => match p.nodes with
      | last :: before =>
        let first := match part with
          | some part => last.withPart part
          | none => last
        p.gather kind last.line [first] before read
      | [] => .refused p.index := by
  intro k p q h hq
  cases hnodes : p.nodes with
  | nil =>
      simp only [hnodes] at hq
      cases hq
  | cons last before =>
      rw [hnodes] at h
      simp only [hnodes] at hq
      have hlast : last.OneObject := h.inner last List.mem_cons_self
      refine sparse_gather hread (sparse_singleton ?_) h.tail hq
      cases part with
      | none => exact hlast
      | some part => exact Node.oneObject_withPart.mpr hlast

theorem keeps_repeated {step : Place → Outcome} (hstep : Keeps step) (n : Nat) :
    Keeps (Rule.repeated step n) := by
  induction n with
  | zero => exact keeps_done
  | succ n ih =>
      intro k p q h hq
      unfold Rule.repeated at hq
      dsimp only at hq
      split at hq
      · next p' hp' =>
          split at hq
          · exact keeps_done k p q h hq
          · exact ih k p' q (hstep k p p' h hp') hq
      · obtain rfl := Option.some.inj hq
        exact h

end

/-! ### Rules -/

namespace Rule

variable {σ : Type}

/-- Whether a rule gives the part of an object to what it has read, other than by growing it. -/
def playsObject : Rule σ → Bool
  | empty | token _ | leaf _ _ | lastIs _ | phrase _ => false
  | seq first second | alt first second => first.playsObject || second.playsObject
  | many body | avoid body | node _ body | grow _ _ body => body.playsObject
  | plays part body => part = .object || body.playsObject

/-- Rules that give the part of an object only by growing add no objects. -/
theorem keeps_run {tokens : Array Token} {call : σ → Place → Outcome}
    (hcall : ∀ name, Keeps (call name)) :
    ∀ r : Rule σ, r.playsObject = false → Keeps (run tokens call r)
  | empty, _ => keeps_done
  | token accepts, _ => keeps_take fun _ _ _ h => h
  | leaf kind accepts, _ => keeps_take fun _ _ _ h => h.cons (Node.oneObject_leaf _ _ _) rfl
  | seq first second, hr =>
      have hparts := Bool.or_eq_false_iff.mp hr
      keeps_andThen (keeps_run hcall first hparts.1) (keeps_run hcall second hparts.2)
  | alt first second, hr =>
      have hparts := Bool.or_eq_false_iff.mp hr
      keeps_orElse (keeps_run hcall first hparts.1) (keeps_run hcall second hparts.2)
  | many body, hr => fun k p q h hq =>
      keeps_repeated (keeps_run hcall body hr) _ k p q h hq
  | avoid body, _ => by
      intro k p q h hq
      rw [run] at hq
      split at hq
      · cases hq
      · exact keeps_done k p q h hq
  | node kind body, hr => by
      intro k p q h hq
      exact sparse_gather (keeps_run hcall body hr) (sparse_nil.mono (Nat.zero_le 1))
        h.skipComments hq
  | grow part kind body, hr => keeps_grow (keeps_run hcall body hr)
  | plays part body, hr =>
      have hparts := Bool.or_eq_false_iff.mp hr
      keeps_andThen (keeps_run hcall body hparts.2) (keeps_plays (of_decide_eq_false hparts.1))
  | lastIs kinds, _ => by
      intro k p q h hq
      rw [run] at hq
      split at hq
      · split at hq
        · exact keeps_done k p q h hq
        · cases hq
      · cases hq
  | phrase name, _ => hcall name

theorem keeps_read {tokens : Array Token} {grammar : σ → Rule σ}
    (hgrammar : ∀ name, (grammar name).playsObject = false) (depth : Nat) (name : σ) :
    Keeps (read tokens grammar depth name) := by
  induction depth generalizing name with
  | zero =>
      intro k p q _ hq
      cases hq
  | succ depth ih => exact keeps_run ih (grammar name) (hgrammar name)

end Rule

/-! ### Source files -/

theorem Grammar.playsObject_rule (name : Phrase) : (Grammar.rule name).playsObject = false := by
  cases name <;> decide

/-- No node of the tree of a source text has two objects. -/
theorem oneObject_of_parse {source : String} {root : Node} (h : parse source = .ok root) :
    root.OneObject := by
  have hattempt (tokens : Array Token) : Sparse 0 (Attempt.ofTokens tokens).place.nodes := by
    refine Sparse.skipComments ?_
    cases hplace : (Rule.read tokens Grammar.rule (16 * (tokens.size + 1)) .file ⟨0, []⟩).place with
    | none => exact sparse_nil
    | some q => exact Rule.keeps_read Grammar.playsObject_rule _ _ 0 ⟨0, []⟩ q sparse_nil hplace
  unfold parse at h
  dsimp only at h
  split at h
  · obtain rfl := Except.ok.inj h
    have hsparse := hattempt (Token.ofSource source).toArray
    refine Node.oneObject_node_iff.mpr ⟨?_, fun c hc => ?_⟩
    · rw [List.countP_reverse]
      exact Nat.le_trans hsparse.count (Nat.zero_le 1)
    · exact hsparse.inner c (List.mem_reverse.mp hc)
  · cases h

end RouteCoverage.Source
