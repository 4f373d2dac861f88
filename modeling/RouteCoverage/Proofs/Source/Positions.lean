import RouteCoverage.Source.Node
import Mathlib.Data.List.Nodup

/-!
# Positions in a tree

A position says child by child, by index, how to go down from the root.  `Node.positions` lists
the positions of a tree in pre-order, each once.  What is gathered from a tree in pre-order is
gathered position by position (`eq_flatMap_positions`).
-/

namespace RouteCoverage.Source

/-- A place in a tree: the indices of the children to go down through. -/
abbrev Position := List Nat

namespace Node

def at? : Position → Node → Option Node
  | [], n => some n
  | i :: p, n => n.children[i]?.bind (at? p)

mutual

/-- The positions in a tree, in pre-order. -/
def positions : Node → List Position
  | node _ _ _ _ children => [] :: positionsAll 0 children

/-- The positions in a list of trees, of which the first one has the index `i`. -/
def positionsAll (i : Nat) : List Node → List Position
  | [] => []
  | n :: rest => (positions n).map (i :: ·) ++ positionsAll (i + 1) rest

end

@[simp] theorem at?_nil (n : Node) : n.at? [] = some n := rfl

theorem at?_append (p q : Position) (n : Node) : n.at? (p ++ q) = (n.at? p).bind (at? q) := by
  induction p generalizing n with
  | nil => rfl
  | cons i p ih =>
      rw [List.cons_append, at?, at?, Option.bind_assoc]
      exact congrArg _ (funext ih)

/-- The children of a node stand right behind its position. -/
theorem at?_concat (p : Position) (i : Nat) (n : Node) :
    n.at? (p ++ [i]) = (n.at? p).bind (·.children[i]?) := by
  rw [at?_append]
  refine congrArg _ (funext fun c => ?_)
  cases h : c.children[i]? <;> simp [at?, h]

theorem positionsAll_eq (i : Nat) (trees : List Node) :
    positionsAll i trees = (trees.zipIdx i).flatMap fun (n, j) => n.positions.map (j :: ·) := by
  induction trees generalizing i with
  | nil => rfl
  | cons n trees ih => rw [positionsAll, ih, List.zipIdx_cons, List.flatMap_cons]

theorem mem_positionsAll {i : Nat} {trees : List Node} {p : Position} :
    p ∈ positionsAll i trees ↔
      ∃ j n q, trees[j]? = some n ∧ q ∈ n.positions ∧ p = (i + j) :: q := by
  simp only [positionsAll_eq, List.mem_flatMap, List.mem_map, Prod.exists,
    List.mk_mem_zipIdx_iff_le_and_getElem?_sub]
  constructor
  · rintro ⟨n, j, ⟨hle, hn⟩, q, hq, rfl⟩
    exact ⟨j - i, n, q, hn, hq, by rw [Nat.add_sub_cancel' hle]⟩
  · rintro ⟨j, n, q, hn, hq, rfl⟩
    exact ⟨n, i + j, ⟨Nat.le_add_right i j, by rwa [Nat.add_sub_cancel_left]⟩, q, hq, rfl⟩

theorem mem_positions {p : Position} {n : Node} : p ∈ n.positions ↔ (n.at? p).isSome := by
  induction p generalizing n with
  | nil =>
      obtain ⟨kind, part, line, text, children⟩ := n
      simp [positions]
  | cons i p ih =>
      obtain ⟨kind, part, line, text, children⟩ := n
      simp only [positions, List.mem_cons, reduceCtorEq, false_or, mem_positionsAll,
        Nat.zero_add, List.cons.injEq, at?, Node.children]
      constructor
      · rintro ⟨j, c, q, hc, hq, rfl, rfl⟩
        rw [hc, Option.bind_some]
        exact ih.mp hq
      · intro h
        cases hc : children[i]? with
        | none =>
            rw [hc] at h
            cases h
        | some c =>
            rw [hc, Option.bind_some] at h
            exact ⟨i, c, p, hc, ih.mpr h, rfl, rfl⟩

mutual

theorem nodup_positions : ∀ n : Node, n.positions.Nodup
  | node kind part line text children => by
      rw [positions, List.nodup_cons]
      refine ⟨fun h => ?_, nodup_positionsAll 0 children⟩
      obtain ⟨j, n, q, -, -, h⟩ := mem_positionsAll.mp h
      cases h

theorem nodup_positionsAll (i : Nat) : ∀ trees : List Node, (positionsAll i trees).Nodup
  | [] => List.nodup_nil
  | n :: rest => by
      rw [positionsAll, List.nodup_append']
      refine ⟨(nodup_positions n).map (List.cons_injective), nodup_positionsAll (i + 1) rest, ?_⟩
      intro p hp hrest
      obtain ⟨q, -, rfl⟩ := List.mem_map.mp hp
      obtain ⟨j, m, r, -, -, h⟩ := mem_positionsAll.mp hrest
      have := (List.cons.inj h).1
      omega

end

section

variable {α β : Type} {root : Node}

theorem flatMap_eq_flatMap_zipIdx (l : List α) (f : α → List β) :
    l.flatMap f = l.zipIdx.flatMap fun a => f a.1 := by
  conv_lhs => rw [← List.zipIdx_map_fst 0 l]
  rw [List.flatMap_map]

/-- What the nodes of a tree give in pre-order is what the positions give one after another, if
each node gives its own part first and then what its children give. -/
theorem eq_flatMap_positions (gather : Position → Node → List β) {one : Position → List β}
    (h : ∀ p n, root.at? p = some n → gather p n =
      one p ++ n.children.zipIdx.flatMap fun child => gather (p ++ [child.2]) child.1) :
    ∀ (n : Node) (p : Position), root.at? p = some n →
      gather p n = n.positions.flatMap fun q => one (p ++ q)
  | node kind part line text children => fun p hn => by
      rw [h p _ hn, positions, List.flatMap_cons, List.append_nil, positionsAll_eq,
        List.flatMap_assoc]
      refine congrArg _ (List.flatMap_congr fun (c, i) hc => ?_)
      have hmem : c ∈ children := List.fst_mem_of_mem_zipIdx hc
      have hat : root.at? (p ++ [i]) = some c := by
        rw [at?_concat, hn, Option.bind_some]
        exact List.mem_zipIdx_iff_getElem?.mp hc
      dsimp only
      rw [eq_flatMap_positions gather h c _ hat, List.flatMap_map]
      simp only [List.append_assoc, List.singleton_append]

theorem preorderAll_eq (trees : List Node) : preorderAll trees = trees.flatMap preorder := by
  induction trees with
  | nil => rfl
  | cons n trees ih => rw [preorderAll, ih, List.flatMap_cons]

/-- The nodes of a tree are those at its positions. -/
theorem preorder_eq (root : Node) :
    root.preorder = root.positions.filterMap fun p => root.at? p := by
  have h : ∀ p n, root.at? p = some n → n.preorder =
      (root.at? p).toList ++ n.children.zipIdx.flatMap fun child => child.1.preorder := by
    rintro p ⟨kind, part, line, text, children⟩ hn
    rw [hn, preorder, preorderAll_eq, flatMap_eq_flatMap_zipIdx]
    rfl
  rw [eq_flatMap_positions (fun _ n => n.preorder) h root [] rfl,
    List.filterMap_eq_flatMap_toList]
  rfl

end

end Node

end RouteCoverage.Source
