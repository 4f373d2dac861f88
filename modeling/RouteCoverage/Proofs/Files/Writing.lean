import RouteCoverage.Proofs.Files.Lookup

/-!
# What is written to a file is found there

A tree grows when directories are made in it and when a file is written: what paths led to they
still lead to, with the same content, except for the file itself (`FileNode.exists_get?_set`).  So
a path leads to the file that was written through it, and the content is what was computed from
the old one (`FileTree.find_of_modifyFile`).
-/

namespace RouteCoverage

namespace FileNode

/-! ### Changing an entry -/

theorem lookup_map_replace (name key : String) (value : FileNode)
    (entries : List (String × FileNode)) :
    (entries.map fun (k, v) => if k = name then (k, value) else (k, v)).lookup key =
      if key = name then (entries.lookup name).map fun _ => value else entries.lookup key := by
  induction entries with
  | nil => split <;> rfl
  | cons first rest ih =>
      obtain ⟨k, v⟩ := first
      rw [List.map_cons]
      by_cases hname : k = name
      · subst hname
        by_cases hkey : key = k
        · simp [hkey]
        · simp [hkey, List.lookup_cons, ih, beq_false_of_ne]
      · simp only [hname, if_false, List.lookup_cons, ih]
        by_cases hkey : key = name
        · subst hkey
          simp [beq_false_of_ne (Ne.symm hname)]
        · simp [hkey]

theorem lookup_setEntry (name key : String) (value : FileNode)
    (entries : List (String × FileNode)) :
    (setEntry name (some value) entries).lookup key =
      if key = name then some value else entries.lookup key := by
  unfold setEntry
  dsimp only
  split
  · next hsome =>
      obtain ⟨old, hold⟩ := Option.isSome_iff_exists.mp hsome
      rw [lookup_map_replace, hold]
      rfl
  · next hnone =>
      rw [Option.not_isSome_iff_eq_none] at hnone
      rw [List.lookup_append]
      by_cases hkey : key = name
      · subst hkey
        simp [hnone]
      · simp [hkey, List.lookup_cons, beq_false_of_ne]

/-! ### Growing trees -/

/-- What a name stands for after a tree has grown: a file with the same content, or a directory
that names no less. -/
def Grown : FileNode → FileNode → Prop
  | file old, file new => old = new
  | directory old, directory new => ∀ name, (old.lookup name).isSome → (new.lookup name).isSome
  | _, _ => False

@[refl] theorem Grown.refl (n : FileNode) : Grown n n := by
  cases n with
  | file content => rfl
  | directory entries => exact fun _ => id

theorem Grown.trans {a b c : FileNode} (hab : Grown a b) (hbc : Grown b c) : Grown a c := by
  cases a <;> cases b <;> cases c <;> try exact hab.elim
  · exact Eq.trans hab hbc
  · exact hbc.elim
  · exact hbc.elim
  · exact fun name h => hbc name (hab name h)

variable {n m value : FileNode} {names place : List String}

theorem get?_cons_directory (name : String) (names : List String)
    (entries : List (String × FileNode)) :
    get? (name :: names) (directory entries) = (entries.lookup name).bind (get? names) := rfl

/-- Putting something behind the name of an entry changes this entry; behind a new name, it makes
the entry or changes nothing. -/
theorem set_cons_directory (value : FileNode) (name : String) (place : List String)
    (entries : List (String × FileNode)) :
    (directory entries).set (some value) (name :: place) =
      match entries.lookup name with
      | some inner => directory (setEntry name (some (inner.set (some value) place)) entries)
      | none => if place = [] then directory (setEntry name (some value) entries)
          else directory entries := by
  cases place with
  | nil =>
      cases hlookup : entries.lookup name with
      | none => rfl
      | some inner =>
          cases inner <;> rfl
  | cons next place =>
      rw [set]
      · cases entries.lookup name <;> rfl
      · exact List.cons_ne_nil next place

theorem grown_setEntry (name : String) (value : FileNode) (entries : List (String × FileNode)) :
    Grown (directory entries) (directory (setEntry name (some value) entries)) := by
  intro key h
  rw [lookup_setEntry]
  split
  · rfl
  · exact h

/-- What is put where no directory was leaves everything else where it was. -/
theorem exists_get?_set (hplace : ∀ entries, n.get? place ≠ some (directory entries))
    (hne : names ≠ place) (hget : n.get? names = some m) :
    ∃ m', (n.set (some value) place).get? names = some m' ∧ Grown m m' := by
  induction place generalizing n names with
  | nil =>
      cases n with
      | directory entries => exact absurd rfl (hplace entries)
      | file content =>
          cases names with
          | nil => exact absurd rfl hne
          | cons name names => cases hget
  | cons first place ih =>
      cases n with
      | file content => exact ⟨m, hget, Grown.refl m⟩
      | directory entries =>
          rw [set_cons_directory]
          cases names with
          | nil =>
              cases hget
              split
              · exact ⟨_, rfl, grown_setEntry _ _ _⟩
              · split
                · exact ⟨_, rfl, grown_setEntry _ _ _⟩
                · exact ⟨_, rfl, Grown.refl _⟩
          | cons name names =>
              rw [get?_cons_directory] at hget
              by_cases hname : name = first
              · subst hname
                obtain ⟨inner, hinner, hget⟩ := Option.bind_eq_some_iff.mp hget
                have hplace' : ∀ entries, inner.get? place ≠ some (directory entries) := by
                  intro entries' h
                  refine hplace entries' ?_
                  rw [get?_cons_directory, hinner]
                  exact h
                have hne' : names ≠ place := fun h => hne (h ▸ rfl)
                obtain ⟨m', hm', hgrown⟩ := ih hplace' hne' hget
                refine ⟨m', ?_, hgrown⟩
                rw [hinner, get?_cons_directory, lookup_setEntry, if_pos rfl]
                exact hm'
              · refine ⟨m, ?_, Grown.refl m⟩
                split
                · rw [get?_cons_directory, lookup_setEntry, if_neg hname]
                  exact hget
                · split
                  · rw [get?_cons_directory, lookup_setEntry, if_neg hname]
                    exact hget
                  · exact hget

theorem get?_set_append {lead : List String} {entries : List (String × FileNode)}
    (h : n.get? lead = some (directory entries)) (name : String) (value : FileNode) :
    (n.set (some value) (lead ++ [name])).get? (lead ++ [name]) = some value := by
  induction lead generalizing n with
  | nil =>
      cases h
      have hset : (directory entries).set (some value) [name] =
          directory (setEntry name (some value) entries) := rfl
      rw [List.nil_append, hset, get?_cons_directory, lookup_setEntry, if_pos rfl]
      rfl
  | cons first lead ih =>
      cases n with
      | file content => cases h
      | directory around =>
          obtain ⟨inner, hinner, hget⟩ := Option.bind_eq_some_iff.mp h
          have hfirst : around.lookup first = some inner := hinner
          rw [List.cons_append, set_cons_directory, hfirst]
          dsimp only
          rw [get?_cons_directory, lookup_setEntry, if_pos rfl]
          exact ih hget

theorem exists_get?_lead {lead : List String} {name : String}
    (h : n.get? (lead ++ [name]) = some m) :
    ∃ entries, n.get? lead = some (directory entries) ∧ entries.lookup name = some m := by
  rw [get?_append] at h
  obtain ⟨inner, hlead, hname⟩ := Option.bind_eq_some_iff.mp h
  cases inner with
  | file content => cases hname
  | directory entries =>
      rw [get?_cons_directory] at hname
      obtain ⟨found, hfound, hsame⟩ := Option.bind_eq_some_iff.mp hname
      cases hsame
      exact ⟨entries, hlead, hfound⟩

theorem get?_set_of_get? (h : n.get? place = some m) (value : FileNode) :
    (n.set (some value) place).get? place = some value := by
  rcases List.eq_nil_or_concat' place with rfl | ⟨lead, name, rfl⟩
  · cases n <;> rfl
  · obtain ⟨entries, hlead, -⟩ := exists_get?_lead h
    exact get?_set_append hlead name value

theorem get?_file_of_set {content : ByteArray} (hplace : n.get? place = none)
    (h : (n.set (some emptyDirectory) place).get? names = some (file content)) :
    n.get? names = some (file content) := by
  induction place generalizing n names with
  | nil => cases hplace
  | cons first place ih =>
      cases n with
      | file content' => exact h
      | directory entries =>
          rw [set_cons_directory] at h
          cases names with
          | nil =>
              split at h
              · cases h
              · split at h <;> cases h
          | cons name names =>
              by_cases hname : name = first
              · subst hname
                rw [get?_cons_directory] at hplace ⊢
                cases hlookup : entries.lookup name with
                | none =>
                    rw [hlookup] at h
                    dsimp only at h
                    split at h
                    · rw [get?_cons_directory, lookup_setEntry, if_pos rfl] at h
                      cases names <;> cases h
                    · rw [get?_cons_directory, hlookup] at h
                      cases h
                | some inner =>
                    rw [hlookup] at h hplace
                    dsimp only at h
                    rw [get?_cons_directory, lookup_setEntry, if_pos rfl] at h
                    exact ih hplace h
              · rw [get?_cons_directory]
                split at h
                · rwa [get?_cons_directory, lookup_setEntry, if_neg hname] at h
                · split at h
                  · rwa [get?_cons_directory, lookup_setEntry, if_neg hname] at h
                  · exact h

/-- Directories stay directories, which name no less. -/
def KeepsDirectories (old new : FileNode) : Prop :=
  ∀ names entries, old.get? names = some (directory entries) →
    ∃ entries', new.get? names = some (directory entries') ∧
      ∀ name, (entries.lookup name).isSome → (entries'.lookup name).isSome

/-- Everything stays where it is; directories may name more. -/
def Extends (old new : FileNode) : Prop :=
  ∀ names m, old.get? names = some m → ∃ m', new.get? names = some m' ∧ Grown m m'

theorem Extends.refl (n : FileNode) : Extends n n := fun _ m h => ⟨m, h, Grown.refl m⟩

theorem Extends.trans {a b c : FileNode} (hab : Extends a b) (hbc : Extends b c) :
    Extends a c := by
  intro names m h
  obtain ⟨m', h', hgrown⟩ := hab names m h
  obtain ⟨m'', h'', hgrown'⟩ := hbc names m' h'
  exact ⟨m'', h'', hgrown.trans hgrown'⟩

theorem Extends.get?_file {old new : FileNode} (h : Extends old new) {content : ByteArray}
    (hget : old.get? names = some (file content)) : new.get? names = some (file content) := by
  obtain ⟨m', hm', hgrown⟩ := h names _ hget
  cases m' with
  | file content' =>
      obtain rfl : content = content' := hgrown
      exact hm'
  | directory entries => exact hgrown.elim

theorem Extends.keepsDirectories {old new : FileNode} (h : Extends old new) :
    KeepsDirectories old new := by
  intro names entries hget
  obtain ⟨m', hm', hgrown⟩ := h names _ hget
  cases m' with
  | file content => exact hgrown.elim
  | directory entries' => exact ⟨entries', hm', hgrown⟩

theorem keepsDirectories_set (hplace : ∀ entries, n.get? place ≠ some (directory entries))
    (value : FileNode) : KeepsDirectories n (n.set (some value) place) := by
  intro names entries hget
  have hne : names ≠ place := fun h => hplace entries (h ▸ hget)
  obtain ⟨m', hm', hgrown⟩ : ∃ m', (n.set (some value) place).get? names = some m' ∧
      Grown (directory entries) m' := exists_get?_set hplace hne hget
  cases m' with
  | file content => exact hgrown.elim
  | directory entries' => exact ⟨entries', hm', hgrown⟩

theorem extends_set (hplace : n.get? place = none) (value : FileNode) :
    Extends n (n.set (some value) place) := by
  intro names m hget
  refine exists_get?_set (fun entries h => ?_) (fun h => ?_) hget
  · rw [hplace] at h
    cases h
  · rw [h, hplace] at hget
    cases hget

end FileNode

namespace FileTree

open FileNode (directory file Extends KeepsDirectories)

variable {t t' : FileTree} {p : Path} {old new : FileNode} {names place segments : List String}

/-! ### Following paths in grown trees -/

/-- Where directories are kept, paths lead to where they led. -/
theorem follow_of_keepsDirectories (h : KeepsDirectories old new)
    (hfollow : follow old place segments = .ok names) : follow new place segments = .ok names := by
  induction segments generalizing place with
  | nil => exact hfollow
  | cons segment segments ih =>
      rw [follow] at hfollow
      cases hplace : old.get? place with
      | none =>
          rw [hplace] at hfollow
          cases hfollow
      | some m =>
          rw [hplace] at hfollow
          cases m with
          | file content => cases hfollow
          | directory entries =>
              obtain ⟨entries', hplace', hnames⟩ := h place entries hplace
              rw [follow, hplace']
              dsimp only at hfollow ⊢
              split at hfollow
              · next htrivial =>
                  rw [if_pos htrivial]
                  exact ih hfollow
              split at hfollow
              · next htrivial hup =>
                  rw [if_neg htrivial, if_pos hup]
                  exact ih hfollow
              split at hfollow
              · next htrivial hup hsome =>
                  rw [if_neg htrivial, if_neg hup, if_pos (hnames segment hsome)]
                  exact ih hfollow
              · cases hfollow

theorem resolve_of_keepsDirectories (h : KeepsDirectories t.root t'.root)
    (hhere : t'.here = t.here) (hresolve : t.resolve p = .ok names) :
    t'.resolve p = .ok names := by
  rw [resolve] at hresolve ⊢
  split at hresolve
  · cases hresolve
  · next hempty =>
      rw [if_neg hempty, start, hhere]
      exact follow_of_keepsDirectories h hresolve

/-- A file is found in a grown tree with the content that it had. -/
theorem find_file_of_extends (h : Extends t.root t'.root) (hhere : t'.here = t.here)
    {content : ByteArray} (hfind : t.find p = .ok (file content)) :
    t'.find p = .ok (file content) := by
  obtain ⟨names, hresolve, hget⟩ := find_eq_ok_iff.mp hfind
  exact find_eq_ok_iff.mpr
    ⟨names, resolve_of_keepsDirectories h.keepsDirectories hhere hresolve, h.get?_file hget⟩

theorem start_snd (t : FileTree) (p : Path) : (t.start p).2 = p.segments := by
  unfold start
  split <;> rfl

/-! ### Making directories -/

theorem extends_makeAll (h : makeAll old place segments = .ok new) : Extends old new := by
  induction segments generalizing old place with
  | nil =>
      cases h
      exact Extends.refl _
  | cons segment segments ih =>
      rw [makeAll] at h
      split at h
      · exact ih h
      split at h
      · exact ih h
      dsimp only at h
      split at h
      · exact ih h
      · cases h
      · next hnone => exact (FileNode.extends_set hnone _).trans (ih h)

theorem exists_makeAll (h : t.makeDirectories p = .ok t') :
    ∃ root, makeAll t.root (t.start p).1 (t.start p).2 = .ok root ∧ t' = { t with root } := by
  unfold makeDirectories at h
  dsimp only at h
  cases hmake : makeAll t.root (t.start p).1 (t.start p).2 with
  | error e =>
      rw [hmake] at h
      cases h
  | ok root =>
      rw [hmake] at h
      cases h
      exact ⟨root, rfl, rfl⟩

theorem find_file_of_makeDirectories (h : t.makeDirectories p = .ok t') {q : Path}
    {content : ByteArray} (hfind : t.find q = .ok (file content)) :
    t'.find q = .ok (file content) := by
  obtain ⟨root, hmake, rfl⟩ := exists_makeAll h
  exact find_file_of_extends (t := t) (extends_makeAll hmake) (by rfl) hfind

theorem exists_eq_append_of_follow (h : follow old place segments = .ok names)
    (hup : ".." ∉ segments) : ∃ more, names = place ++ more := by
  induction segments generalizing place with
  | nil =>
      cases h
      exact ⟨[], (List.append_nil _).symm⟩
  | cons segment segments ih =>
      rw [List.mem_cons, not_or] at hup
      rw [follow] at h
      split at h
      · cases h
      · cases h
      split at h
      · exact ih h hup.2
      rw [if_neg (Ne.symm hup.1)] at h
      split at h
      · obtain ⟨more, rfl⟩ := ih h hup.2
        exact ⟨segment :: more, List.append_assoc _ _ _⟩
      · cases h

theorem exists_directory_of_file {content : ByteArray} {more : List String}
    (h : old.get? (place ++ more) = some (file content)) (hmore : more ≠ []) :
    ∃ entries, old.get? place = some (directory entries) ∧
      (entries.lookup (more.head hmore)).isSome := by
  obtain ⟨name, more, rfl⟩ := List.exists_cons_of_ne_nil hmore
  have hlead : place ++ name :: more = (place ++ [name]) ++ more := by simp
  rw [hlead, FileNode.get?_append] at h
  obtain ⟨m, hm, -⟩ := Option.bind_eq_some_iff.mp h
  obtain ⟨entries, hplace, hlookup⟩ := FileNode.exists_get?_lead hm
  exact ⟨entries, hplace, Option.isSome_of_eq_some hlookup⟩

theorem follow_of_get?_file {content : ByteArray} (hup : ".." ∉ segments)
    (hfollow : follow new place segments = .ok names)
    (hnew : new.get? names = some (file content)) (hold : old.get? names = some (file content)) :
    follow old place segments = .ok names := by
  induction segments generalizing place with
  | nil => exact hfollow
  | cons segment segments ih =>
      obtain ⟨more, rfl⟩ := exists_eq_append_of_follow hfollow hup
      rw [List.mem_cons, not_or] at hup
      rw [follow] at hfollow
      cases hplace : new.get? place with
      | none =>
          rw [hplace] at hfollow
          cases hfollow
      | some m =>
          rw [hplace] at hfollow
          cases m with
          | file content' => cases hfollow
          | directory entries' =>
              have hmore : more ≠ [] := by
                rintro rfl
                rw [List.append_nil, hplace] at hnew
                cases hnew
              obtain ⟨entries, hplace', hlookup⟩ := exists_directory_of_file hold hmore
              rw [follow, hplace']
              dsimp only at hfollow ⊢
              rw [if_neg (Ne.symm hup.1)] at hfollow ⊢
              split at hfollow
              · next htrivial =>
                  rw [if_pos htrivial]
                  exact ih hup.2 hfollow
              split at hfollow
              · next htrivial _ =>
                  obtain ⟨more', hmore'⟩ := exists_eq_append_of_follow hfollow hup.2
                  rw [List.append_assoc, List.append_cancel_left_eq] at hmore'
                  subst hmore'
                  have hsegment : (entries.lookup segment).isSome := hlookup
                  rw [if_neg htrivial, if_pos hsegment]
                  exact ih hup.2 hfollow
              · cases hfollow

theorem get?_file_of_makeAll {content : ByteArray} (h : makeAll old place segments = .ok new)
    (hget : new.get? names = some (file content)) : old.get? names = some (file content) := by
  induction segments generalizing old place with
  | nil =>
      cases h
      exact hget
  | cons segment segments ih =>
      rw [makeAll] at h
      split at h
      · exact ih h
      split at h
      · exact ih h
      dsimp only at h
      split at h
      · exact ih h
      · cases h
      · next hnone => exact FileNode.get?_file_of_set hnone (ih h)

/-- Making directories makes no file: what a path without `..` leads to then, it led to before. -/
theorem find_file_of_find_made (h : t.makeDirectories p = .ok t') {q : Path}
    (hup : ".." ∉ q.segments) {content : ByteArray} (hfind : t'.find q = .ok (file content)) :
    t.find q = .ok (file content) := by
  obtain ⟨root, hmake, rfl⟩ := exists_makeAll h
  obtain ⟨names, hresolve, hget⟩ := find_eq_ok_iff.mp hfind
  have hold := get?_file_of_makeAll hmake hget
  refine find_eq_ok_iff.mpr ⟨names, ?_, hold⟩
  rw [resolve] at hresolve ⊢
  split at hresolve
  · cases hresolve
  · next hempty =>
      rw [if_neg hempty]
      rw [← start_snd t] at hup
      exact follow_of_get?_file hup hresolve hget hold

/-! ### Writing files -/

theorem resolve_eq_follow {name : String} (hstart : t.start p = (place, segments ++ [name]))
    (hname : Path.isTrivial name = false) :
    t.resolve p = follow t.root place (segments ++ [name]) := by
  have hempty : ¬ p.text.isEmpty = true := by
    intro hempty
    rw [String.isEmpty_iff] at hempty
    have hsegments := start_snd t p
    rw [hstart, Path.segments, hempty] at hsegments
    have hone : segments ++ [name] = [] ++ [""] := hsegments
    obtain ⟨-, hlast⟩ := List.append_inj' hone rfl
    rw [(List.cons_eq_cons.mp hlast).1] at hname
    cases hname
  rw [resolve, if_neg hempty, hstart]

theorem follow_name {name : String} {entries : List (String × FileNode)}
    (hplace : old.get? place = some (directory entries)) (hname : Path.isTrivial name = false)
    (hup : name ≠ "..") (hsome : (entries.lookup name).isSome) :
    follow old place [name] = .ok (place ++ [name]) := by
  rw [follow, hplace]
  dsimp only
  rw [if_neg (by rw [hname]; exact Bool.false_ne_true), if_neg hup, if_pos hsome, follow]

theorem exists_get?_of_follow (h : follow old place segments = .ok names)
    (hplace : segments = [] → ∃ m, old.get? place = some m) : ∃ m, old.get? names = some m := by
  induction segments generalizing place with
  | nil =>
      cases h
      exact hplace rfl
  | cons segment segments ih =>
      rw [follow] at h
      cases hget : old.get? place with
      | none =>
          rw [hget] at h
          cases h
      | some m =>
          rw [hget] at h
          cases m with
          | file content => cases h
          | directory entries =>
              dsimp only at h
              split at h
              · exact ih h fun _ => ⟨_, hget⟩
              split at h
              · refine ih h fun _ => ?_
                rcases List.eq_nil_or_concat' place with rfl | ⟨lead, last, rfl⟩
                · exact ⟨_, hget⟩
                · obtain ⟨around, haround, -⟩ := FileNode.exists_get?_lead hget
                  rw [List.dropLast_concat]
                  exact ⟨_, haround⟩
              split at h
              · next hsome =>
                  obtain ⟨inner, hinner⟩ := Option.isSome_iff_exists.mp hsome
                  refine ih h fun _ => ⟨inner, ?_⟩
                  rw [FileNode.get?_append, hget]
                  simp [FileNode.get?, FileNode.entries?, hinner]
              · cases h

theorem exists_get?_of_resolve (h : t.resolve p = .ok names) : ∃ m, t.root.get? names = some m := by
  rw [resolve] at h
  split at h
  · cases h
  · have hsegments := start_snd t p
    rcases hstart : t.start p with ⟨place, segments⟩
    rw [hstart] at h hsegments
    refine exists_get?_of_follow h fun hnil => ?_
    rw [hnil, eq_comm, Path.segments, List.map_eq_nil_iff] at hsegments
    exact absurd hsegments (splitAt_ne_nil _ _)

/-- A file is written where its path leads, or under a new name in the directory that the path
without its last segment leads to. -/
theorem target_cases (h : t.target p = .ok names) :
    t.resolve p = .ok names ∨
    (∃ e, t.resolve p = .error e) ∧ ∃ place segments lead name entries,
      t.start p = (place, segments ++ [name]) ∧ names = lead ++ [name] ∧
      Path.isTrivial name = false ∧ name ≠ ".." ∧ follow t.root place segments = .ok lead ∧
      t.root.get? lead = some (directory entries) := by
  unfold target at h
  cases hresolve : t.resolve p with
  | ok names' =>
      rw [hresolve] at h
      cases h
      exact .inl rfl
  | error e =>
      rw [hresolve] at h
      refine .inr ⟨⟨e, rfl⟩, ?_⟩
      rcases hstart : t.start p with ⟨place, segments⟩
      rw [hstart] at h
      dsimp only at h
      split at h
      iterate 4 cases h
      next name hempty hcurrent hup hlast =>
      obtain ⟨before, rfl⟩ := List.getLast?_eq_some_iff.mp hlast
      rw [List.dropLast_concat] at h
      cases hfollow : follow t.root place before with
      | error e =>
          rw [hfollow] at h
          cases h
      | ok lead =>
          rw [hfollow] at h
          cases hlead : t.root.get? lead with
          | none =>
              simp only [bind, Except.bind, hlead] at h
              cases h
          | some m =>
              simp only [bind, Except.bind, hlead] at h
              cases m with
              | file content => cases h
              | directory entries =>
                  cases h
                  have htrivial : Path.isTrivial name = false := by
                    rw [Path.isTrivial, beq_false_of_ne hempty, beq_false_of_ne hcurrent]
                    rfl
                  exact ⟨place, before, lead, name, entries, rfl, rfl, htrivial, hup, hfollow,
                    hlead⟩

/-- A tree with a file put where the names lead. -/
def withFile (t : FileTree) (names : List String) (content : ByteArray) : FileTree :=
  { t with root := t.root.set (some (file content)) names }

/-- A path that leads to a file leads to what takes its place. -/
theorem find_withFile_of_resolve {old : ByteArray} (hresolve : t.resolve p = .ok names)
    (hget : t.root.get? names = some (file old)) (content : ByteArray) :
    (t.withFile names content).find p = .ok (file content) := by
  have hplace : ∀ entries, t.root.get? names ≠ some (directory entries) := by
    rw [hget]
    rintro entries ⟨⟩
  have hkeeps : KeepsDirectories t.root (t.withFile names content).root :=
    FileNode.keepsDirectories_set hplace _
  exact find_eq_ok_iff.mpr
    ⟨names, resolve_of_keepsDirectories hkeeps rfl hresolve, FileNode.get?_set_of_get? hget _⟩

theorem find_withFile_of_follow {lead : List String} {name : String}
    {entries : List (String × FileNode)} (hstart : t.start p = (place, segments ++ [name]))
    (hname : Path.isTrivial name = false) (hup : name ≠ "..")
    (hfollow : follow t.root place segments = .ok lead)
    (hlead : t.root.get? lead = some (directory entries))
    (hnew : t.root.get? (lead ++ [name]) = none) (content : ByteArray) :
    (t.withFile (lead ++ [name]) content).find p = .ok (file content) := by
  have hstart' : (t.withFile (lead ++ [name]) content).start p = (place, segments ++ [name]) :=
    hstart
  have hextends : Extends t.root (t.withFile (lead ++ [name]) content).root :=
    FileNode.extends_set hnew _
  have hget : (t.withFile (lead ++ [name]) content).root.get? (lead ++ [name]) =
      some (file content) := FileNode.get?_set_append hlead name _
  obtain ⟨entries', hlead', hlookup⟩ := FileNode.exists_get?_lead hget
  refine find_eq_ok_iff.mpr ⟨lead ++ [name], ?_, hget⟩
  rw [resolve_eq_follow hstart' hname, follow_append,
    follow_of_keepsDirectories hextends.keepsDirectories hfollow]
  exact follow_name hlead' hname hup (Option.isSome_of_eq_some hlookup)

/-- A path leads to the file that was written through it. -/
theorem find_of_modifyFile {change : ByteArray → ByteArray}
    (h : t.modifyFile p change = .ok t') : t'.find p = .ok (file (change (t.content p))) := by
  unfold modifyFile at h
  cases htarget : t.target p with
  | error e =>
      rw [htarget] at h
      cases h
  | ok names =>
      rw [htarget] at h
      simp only [bind, Except.bind] at h
      rcases target_cases htarget with hresolve |
        ⟨⟨e, herror⟩, place, segments, lead, name, entries, hstart, rfl, hname, hup, hfollow, hlead⟩
      · obtain ⟨m, hget⟩ := exists_get?_of_resolve hresolve
        rw [hget] at h
        cases m with
        | directory entries => cases h
        | file old =>
            cases h
            rw [content, find_eq_ok_iff.mpr ⟨names, hresolve, hget⟩]
            exact find_withFile_of_resolve hresolve hget _
      · -- the directory does not have the name yet, or the path would lead to it
        have hnew : t.root.get? (lead ++ [name]) = none := by
          by_contra hsome
          obtain ⟨m, hget⟩ := Option.ne_none_iff_exists'.mp hsome
          obtain ⟨entries', hlead', hlookup⟩ := FileNode.exists_get?_lead hget
          have hfound := follow_name hlead' hname hup (Option.isSome_of_eq_some hlookup)
          rw [resolve_eq_follow hstart hname, follow_append, hfollow, Except.bind, hfound] at herror
          cases herror
        have hcontent : t.content p = .empty := by
          rw [content, find, herror]
          rfl
        rw [hnew] at h
        cases h
        rw [hcontent]
        exact find_withFile_of_follow hstart hname hup hfollow hlead hnew _

end FileTree

end RouteCoverage
