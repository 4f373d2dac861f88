import RouteCoverage.Source.Node

/-!
# Comments in a tree

Comments are leaves that stand between the other children of a node and play no part in it.
`Commented` says that a tree is another one with comments put in anywhere; the lines may differ.
Two such trees are the same once comments and lines are taken away (`bare_of_commented`), and
taking them away keeps what a child is found by (`child?_bare`) and what is gathered from the nodes
in pre-order, if nothing is gathered from comments (`map_bare_filterMap_preorder`).
-/

namespace RouteCoverage.Source.Node

mutual

/-- The second tree is the first one with comments put in; the lines may differ. -/
inductive Commented : Node → Node → Prop
  | comment (line line' : Nat) (text : String) :
      Commented (leaf .comment line text) (leaf .comment line' text)
  /-- comments are put between the children of anything but a comment -/
  | node {kind : Kind} (hkind : kind ≠ .comment) (part : Option Part) (line line' : Nat)
      (text : String) {children children' : List Node} : CommentedAll children children' →
        Commented (node kind part line text children) (node kind part line' text children')

/-- The second list of trees is the first one with comments put in, inside the trees and between
them. -/
inductive CommentedAll : List Node → List Node → Prop
  | nil : CommentedAll [] []
  | keep {n n' : Node} {rest rest' : List Node} : Commented n n' → CommentedAll rest rest' →
      CommentedAll (n :: rest) (n' :: rest')
  | insert (line : Nat) (text : String) {rest rest' : List Node} : CommentedAll rest rest' →
      CommentedAll rest (leaf .comment line text :: rest')

end

def isComment : Node → Bool
  | node .comment none _ _ [] => true
  | _ => false

theorem eq_leaf_of_isComment {n : Node} (h : n.isComment = true) :
    ∃ line text, n = leaf .comment line text := by
  unfold isComment at h
  split at h
  · exact ⟨_, _, rfl⟩
  · cases h

theorem isComment_eq_false {kind : Kind} (h : kind ≠ .comment) (part : Option Part) (line : Nat)
    (text : String) (children : List Node) :
    (node kind part line text children).isComment = false := by
  unfold isComment
  split
  · next heq =>
      cases heq
      exact absurd rfl h
  · rfl

/-! ### Deciding where comments were put in -/

theorem commented_node_iff {kind kind' : Kind} {part part' : Option Part} {line line' : Nat}
    {text text' : String} {children children' : List Node} :
    Commented (node kind part line text children) (node kind' part' line' text' children') ↔
      (kind = kind' ∧ part = part' ∧ text = text') ∧
        ((kind = .comment ∧ part = none ∧ children.isEmpty ∧ children'.isEmpty) ∨
          (kind ≠ .comment ∧ CommentedAll children children')) := by
  constructor
  · intro h
    cases h with
    | comment => exact ⟨⟨rfl, rfl, rfl⟩, .inl ⟨rfl, rfl, rfl, rfl⟩⟩
    | node hkind _ _ _ _ hall => exact ⟨⟨rfl, rfl, rfl⟩, .inr ⟨hkind, hall⟩⟩
  · rintro ⟨⟨rfl, rfl, rfl⟩, ⟨rfl, rfl, hchildren, hchildren'⟩ | ⟨hkind, hall⟩⟩
    · rw [List.isEmpty_iff.mp hchildren, List.isEmpty_iff.mp hchildren']
      exact .comment line line' text
    · exact .node hkind part line line' text hall

theorem commentedAll_nil_cons_iff {c : Node} {rest' : List Node} :
    CommentedAll [] (c :: rest') ↔ c.isComment = true ∧ CommentedAll [] rest' := by
  constructor
  · intro h
    cases h with
    | insert line text hrest => exact ⟨rfl, hrest⟩
  · rintro ⟨hc, hrest⟩
    obtain ⟨line, text, rfl⟩ := eq_leaf_of_isComment hc
    exact .insert line text hrest

theorem commentedAll_cons_cons_iff {n c : Node} {rest rest' : List Node} :
    CommentedAll (n :: rest) (c :: rest') ↔
      (Commented n c ∧ CommentedAll rest rest') ∨
        (c.isComment = true ∧ CommentedAll (n :: rest) rest') := by
  constructor
  · intro h
    cases h with
    | keep h hrest => exact .inl ⟨h, hrest⟩
    | insert line text hrest => exact .inr ⟨rfl, hrest⟩
  · rintro (⟨h, hrest⟩ | ⟨hc, hrest⟩)
    · exact .keep h hrest
    · obtain ⟨line, text, rfl⟩ := eq_leaf_of_isComment hc
      exact .insert line text hrest

mutual

/-- Whether comments and lines are all that two trees differ by can be decided. -/
instance decideCommented : ∀ n n' : Node, Decidable (Commented n n')
  | node _ _ _ _ children, node _ _ _ _ children' =>
    have := decideCommentedAll children children'
    decidable_of_iff' _ commented_node_iff

instance decideCommentedAll : ∀ trees trees' : List Node, Decidable (CommentedAll trees trees')
  | [], [] => .isTrue .nil
  | _ :: _, [] => .isFalse nofun
  | [], _ :: rest' =>
    have := decideCommentedAll [] rest'
    decidable_of_iff' _ commentedAll_nil_cons_iff
  | n :: rest, c :: rest' =>
    have := decideCommented n c
    have := decideCommentedAll rest rest'
    have := decideCommentedAll (n :: rest) rest'
    decidable_of_iff' _ commentedAll_cons_cons_iff

end

/-! ### Trees without comments -/

mutual

/-- A tree without the comments in it and without lines. -/
def bare : Node → Node
  | node kind part _ text children => node kind part 0 text (bareAll children)

/-- Trees without comments and without lines. -/
def bareAll : List Node → List Node
  | [] => []
  | n :: rest => if n.isComment then bareAll rest else bare n :: bareAll rest

end

@[simp] theorem kind_bare (n : Node) : n.bare.kind = n.kind := by cases n; rfl

@[simp] theorem part_bare (n : Node) : n.bare.part = n.part := by cases n; rfl

@[simp] theorem text_bare (n : Node) : n.bare.text = n.text := by cases n; rfl

@[simp] theorem line_bare (n : Node) : n.bare.line = 0 := by cases n; rfl

@[simp] theorem children_bare (n : Node) : n.bare.children = bareAll n.children := by cases n; rfl

theorem isComment_of_commented {n n' : Node} (h : Commented n n') :
    n'.isComment = n.isComment := by
  cases h with
  | comment => rfl
  | node hkind part line line' text _ =>
      rw [isComment_eq_false hkind, isComment_eq_false hkind]

mutual

/-- Trees that differ by comments and lines are the same without them. -/
theorem bare_of_commented : ∀ {n n' : Node}, Commented n n' → n'.bare = n.bare
  | _, _, .comment _ _ _ => rfl
  | _, node _ _ _ _ _, .node _ _ _ _ _ h => by rw [bare, bare, bareAll_of_commentedAll h]

theorem bareAll_of_commentedAll : ∀ {trees trees' : List Node}, CommentedAll trees trees' →
    bareAll trees' = bareAll trees
  | _, [], .nil => rfl
  | _, _ :: _, .keep h hrest => by
      rw [bareAll, bareAll, isComment_of_commented h, bare_of_commented h,
        bareAll_of_commentedAll hrest]
  | _, _ :: _, .insert _ _ hrest => by
      rw [bareAll]
      exact bareAll_of_commentedAll hrest

end

theorem child?_bare (part : Part) (n : Node) : n.bare.child? part = (n.child? part).map bare := by
  unfold child?
  rw [children_bare]
  induction n.children with
  | nil => rfl
  | cons c children ih =>
      rw [bareAll, List.find?_cons]
      split
      · next hcomment =>
          obtain ⟨line, text, rfl⟩ := eq_leaf_of_isComment hcomment
          exact ih
      · rw [List.find?_cons, part_bare, ih]
        split <;> rfl

mutual

/-- What the nodes of a tree give in pre-order does not depend on comments, if comments give
nothing and every other node gives the same without the comments below it. -/
theorem map_bare_filterMap_preorder {f : Node → Option Node} (hf : ∀ n, f n.bare = (f n).map bare)
    (hcomment : ∀ line text, f (leaf .comment line text) = none) :
    ∀ n : Node, (n.preorder.filterMap f).map bare = n.bare.preorder.filterMap f
  | node kind part line text children => by
      have hchildren := map_bare_filterMap_preorderAll hf hcomment children
      have hnode := hf (node kind part line text children)
      rw [bare] at hnode
      rw [bare, preorder, preorder, List.filterMap_cons, List.filterMap_cons, hnode, ← hchildren]
      cases f (node kind part line text children) <;> rfl

theorem map_bare_filterMap_preorderAll {f : Node → Option Node}
    (hf : ∀ n, f n.bare = (f n).map bare)
    (hcomment : ∀ line text, f (leaf .comment line text) = none) :
    ∀ trees : List Node,
      ((preorderAll trees).filterMap f).map bare = (preorderAll (bareAll trees)).filterMap f
  | [] => rfl
  | n :: rest => by
      rw [preorderAll, bareAll, List.filterMap_append, List.map_append,
        map_bare_filterMap_preorderAll hf hcomment rest]
      split
      · next h =>
          obtain ⟨line, text, rfl⟩ := eq_leaf_of_isComment h
          have hnone : ([leaf .comment line text].filterMap f).map bare = [] := by
            rw [List.filterMap_cons_none (hcomment line text)]
            rfl
          exact congrArg (· ++ _) hnone
      · rw [preorderAll, List.filterMap_append, map_bare_filterMap_preorder hf hcomment n]

end

end RouteCoverage.Source.Node
