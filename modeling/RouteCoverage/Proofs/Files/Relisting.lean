import RouteCoverage.Proofs.Files.Lookup

/-!
# File trees listed in another order

A directory may list its entries in any order.  In a well-named tree the order of the entries says
nothing: a path leads along the same names, to a file in one tree if to a file in the other
(`resolve_congr`, `Relisted.sameShape`).
-/

namespace RouteCoverage

namespace FileNode

/-- The same files and directories with the entries of some directories in another order. -/
inductive Relisted : FileNode → FileNode → Prop where
  /-- the entries of the directory itself -/
  | reorder {entries entries' : List (String × FileNode)} (h : entries.Perm entries') :
      Relisted (.directory entries) (.directory entries')
  /-- what one entry stands for -/
  | inside {before after : List (String × FileNode)} {name : String} {n n' : FileNode}
      (h : Relisted n n') :
      Relisted (.directory (before ++ (name, n) :: after))
        (.directory (before ++ (name, n') :: after))
  | trans {n n' n'' : FileNode} (h : Relisted n n') (h' : Relisted n' n'') : Relisted n n''

def isDirectory : FileNode → Bool
  | .file _ => false
  | .directory _ => true

/-- The same names lead to files, and the same names lead to directories. -/
def SameShape (n m : FileNode) : Prop :=
  ∀ names, (get? names n).map isDirectory = (get? names m).map isDirectory

variable {n m : FileNode} {entries entries' : List (String × FileNode)} {name : String}

theorem get?_cons (name : String) (names : List String) (entries : List (String × FileNode)) :
    get? (name :: names) (.directory entries) = (entries.lookup name).bind (get? names) := rfl

theorem allWellNamed_iff :
    AllWellNamed entries ↔ ∀ e ∈ entries, Path.IsName e.1 ∧ e.2.WellNamed := by
  refine ⟨fun h e he => of_allWellNamed h he, fun h => ?_⟩
  induction entries with
  | nil => trivial
  | cons e entries ih =>
      obtain ⟨hname, hnode⟩ := h e List.mem_cons_self
      exact ⟨hname, hnode, ih fun e' he' => h e' (List.mem_cons_of_mem e he')⟩

/-- Entries with the same names in another order are well named together. -/
theorem Relisted.wellNamed (h : Relisted n m) (hn : n.WellNamed) : m.WellNamed := by
  induction h with
  | reorder hperm =>
      refine ⟨(hperm.map Prod.fst).nodup_iff.mp hn.1, allWellNamed_iff.mpr fun e he => ?_⟩
      exact allWellNamed_iff.mp hn.2 e (hperm.mem_iff.mpr he)
  | @inside before after name n n' _ ih =>
      have hnames : (before ++ (name, n') :: after).map Prod.fst =
          (before ++ (name, n) :: after).map Prod.fst := by simp
      have hentries := allWellNamed_iff.mp hn.2
      refine ⟨hnames ▸ hn.1, allWellNamed_iff.mpr fun e he => ?_⟩
      have hself : (name, n) ∈ before ++ (name, n) :: after := by simp
      rcases List.mem_append.mp he with he | he
      · exact hentries e (List.mem_append_left _ he)
      · rcases List.mem_cons.mp he with rfl | he
        · exact ⟨(hentries _ hself).1, ih (hentries _ hself).2⟩
        · exact hentries e (List.mem_append_right _ (List.mem_cons_of_mem _ he))
  | trans _ _ ih ih' => exact ih' (ih hn)

theorem lookup_eq_of_perm (hnodup : (entries.map Prod.fst).Nodup) (h : entries.Perm entries')
    (name : String) : entries.lookup name = entries'.lookup name := by
  refine Option.ext fun node => ?_
  rw [lookup_eq_some_iff hnodup, lookup_eq_some_iff ((h.map Prod.fst).nodup_iff.mp hnodup),
    h.mem_iff]

/-- The order of entries does not change where names lead. -/
theorem Relisted.sameShape (h : Relisted n m) (hn : n.WellNamed) : n.SameShape m := by
  induction h with
  | reorder hperm =>
      rintro (- | ⟨name, names⟩)
      · rfl
      · rw [get?_cons, get?_cons, lookup_eq_of_perm hn.1 hperm]
  | @inside before after name n n' hinside ih =>
      have hnode : n.WellNamed := (allWellNamed_iff.mp hn.2 (name, n) (by simp)).2
      have hnodup' := ((Relisted.inside hinside).wellNamed hn).1
      rintro (- | ⟨key, names⟩)
      · rfl
      · rw [get?_cons, get?_cons]
        by_cases hkey : key = name
        · rw [hkey, (lookup_eq_some_iff hn.1).mpr (by simp : (name, n) ∈ _),
            (lookup_eq_some_iff hnodup').mpr (by simp : (name, n') ∈ _)]
          exact ih hnode names
        · -- all other entries are the same
          have hlookup : (before ++ (name, n) :: after).lookup key =
              (before ++ (name, n') :: after).lookup key := by
            refine Option.ext fun node => ?_
            rw [lookup_eq_some_iff hn.1, lookup_eq_some_iff hnodup']
            simp [hkey]
          rw [hlookup]
  | trans h _ ih ih' =>
      intro names
      exact (ih hn names).trans (ih' (h.wellNamed hn) names)

/-- Where names lead to a directory, a name is in it if one more name leads to something. -/
theorem isSome_lookup {names : List String} (h : get? names n = some (.directory entries)) :
    (entries.lookup name).isSome = (get? (names ++ [name]) n).isSome := by
  rw [get?_append, h, Option.bind_some, get?_cons]
  cases entries.lookup name <;> rfl

end FileNode

namespace FileTree

open FileNode (SameShape)

variable {t t' : FileTree}

theorem follow_congr {root root' : FileNode} (h : root.SameShape root') (place : List String)
    (segments : List String) : follow root place segments = follow root' place segments := by
  induction segments generalizing place with
  | nil => rfl
  | cons segment segments ih =>
      have hplace := h place
      rw [follow, follow]
      cases hget : root.get? place with
      | none =>
          rw [hget, Option.map_none, eq_comm, Option.map_eq_none_iff] at hplace
          rw [hplace]
      | some node =>
          obtain ⟨node', hget', hkind⟩ := Option.map_eq_some_iff.mp
            (hplace.symm.trans (by rw [hget, Option.map_some]))
          rw [hget']
          cases node with
          | file content =>
              cases node' with
              | file content' => rfl
              | directory entries' => cases hkind
          | directory entries =>
              cases node' with
              | file content' => cases hkind
              | directory entries' =>
                  have hlookup : (entries.lookup segment).isSome =
                      (entries'.lookup segment).isSome := by
                    rw [FileNode.isSome_lookup hget, FileNode.isSome_lookup hget',
                      ← Option.isSome_map, h (place ++ [segment]), Option.isSome_map]
                  dsimp only
                  rw [hlookup, ih place, ih place.dropLast, ih (place ++ [segment])]

theorem resolve_congr (hroot : t.root.SameShape t'.root) (hhere : t'.here = t.here) (p : Path) :
    t.resolve p = t'.resolve p := by
  unfold resolve start
  rw [hhere]
  split
  · rfl
  · exact follow_congr hroot _ _

end FileTree

end RouteCoverage
