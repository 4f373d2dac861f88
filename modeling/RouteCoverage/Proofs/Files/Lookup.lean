import Mathlib.Data.List.Basic
import RouteCoverage.Files.Tree

/-!
# Looking up what a directory names

In a tree whose directories give every entry a name of its own (`FileNode.WellNamed`), the path of
a directory joined with a name leads to what the directory names so (`find_join`), and this path
ends with the name (`fileName?_join`, `extension?_join`).
-/

namespace RouteCoverage

namespace Path

/-- A text that a directory can use as a name: one segment, which stands for itself. -/
def IsName (name : String) : Prop :=
  isTrivial name = false ∧ name ≠ ".." ∧ '/' ∉ name.toList

instance : DecidablePred IsName := fun _ => inferInstanceAs (Decidable (_ ∧ _ ∧ _))

variable {p : Path} {name : String}

theorem segments_of_isName (h : IsName name) : (⟨name⟩ : Path).segments = [name] := by
  rw [segments, splitAt_of_not_mem h.2.2, List.map_singleton, String.ofList_toList]

theorem anchor_of_isName (h : IsName name) : (⟨name⟩ : Path).anchor = none := by
  unfold anchor
  rw [segments_of_isName h]
  split
  · next hsegments => cases hsegments
  · next hsegments =>
      have htrivial := h.1
      rw [(List.cons_eq_cons.mp hsegments).1] at htrivial
      cases htrivial
  · rfl

theorem isAbsolute_of_isName (h : IsName name) : (⟨name⟩ : Path).isAbsolute = false := by
  rw [isAbsolute, anchor_of_isName h]
  rfl

/-- What a path begins with whose segments lead on to another one. -/
def anchorOf : List String → Option Component
  | "" :: _ => some .root
  | "." :: _ => some .current
  | _ => none

theorem anchor_eq_anchorOf {lead : List String} (hlead : lead ≠ [])
    (h : (∃ last, p.segments = lead ++ [last]) ∨ p.segments = lead ∧ lead ≠ [""]) :
    p.anchor = anchorOf lead := by
  obtain ⟨first, lead, rfl⟩ := List.exists_cons_of_ne_nil hlead
  rcases h with ⟨last, h⟩ | ⟨h, hne⟩
  · unfold anchor anchorOf
    rw [h]
    cases lead <;> grind
  · unfold anchor anchorOf
    rw [h]
    cases lead <;> grind

theorem text_eq_empty_of_segments (h : p.segments = [""]) : p.text = "" := by
  obtain ⟨piece, hpiece, hempty⟩ := List.map_eq_singleton_iff.mp h
  have hjoin := joinWith_splitAt '/' p.text.toList
  rw [hpiece] at hjoin
  rw [← String.ofList_toList (s := p.text), ← hjoin]
  exact hempty

/-- A path goes on with a name where it ends, or behind the slash that it ends with. -/
theorem exists_segments_join (h : p.text ≠ "") (hname : IsName name) :
    ∃ lead, lead ≠ [] ∧ (p.join ⟨name⟩).segments = lead ++ [name] ∧
      (p.segments = lead ++ [""] ∨ p.segments = lead ∧ lead ≠ [""]) := by
  have hpieces : splitAt '/' name.toList = [name.toList] := splitAt_of_not_mem hname.2.2
  have hlead (s : List Char) : (splitAt '/' s).map String.ofList ≠ [] := by
    rw [ne_eq, List.map_eq_nil_iff]
    exact splitAt_ne_nil '/' s
  rw [join, if_neg (by rw [isAbsolute_of_isName hname]; exact Bool.false_ne_true)]
  by_cases hends : p.text.endsWith "/" = true
  · -- the empty segment behind the last slash makes way for the name
    rw [if_pos (by rw [hends, Bool.or_true])]
    rw [← String.endsWith_toSlice, String.Slice.endsWith_string_iff, String.copy_toSlice] at hends
    obtain ⟨s, hs⟩ := hends
    have hslash : "/".toList = ['/'] := rfl
    rw [hslash] at hs
    refine ⟨(splitAt '/' s).map String.ofList, hlead s, ?_, .inl ?_⟩
    · rw [segments, String.toList_append, ← hs, List.append_assoc, List.singleton_append,
        splitAt_append_cons, hpieces, List.map_append, List.map_singleton, String.ofList_toList]
    · rw [segments, ← hs, splitAt_append_cons, List.map_append]
      rfl
  · rw [if_neg (by simp [hends, h])]
    refine ⟨p.segments, hlead _, ?_, .inr ⟨rfl, fun hempty => h (text_eq_empty_of_segments hempty)⟩⟩
    have hslash : "/".toList = ['/'] := rfl
    rw [segments, String.toList_append, String.toList_append, hslash, List.append_assoc,
      List.singleton_append, splitAt_append_cons, hpieces, List.map_append, List.map_singleton,
      String.ofList_toList]
    rfl

theorem anchor_join (h : p.text ≠ "") (hname : IsName name) :
    (p.join ⟨name⟩).anchor = p.anchor := by
  obtain ⟨lead, hlead, hjoin, hp⟩ := exists_segments_join h hname
  rw [anchor_eq_anchorOf hlead (.inl ⟨name, hjoin⟩)]
  refine (anchor_eq_anchorOf hlead ?_).symm
  rcases hp with hp | hp
  · exact .inl ⟨"", hp⟩
  · exact .inr hp

theorem fileName?_join (h : p.text ≠ "") (hname : IsName name) :
    (p.join ⟨name⟩).fileName? = some name := by
  obtain ⟨lead, hlead, hjoin, -⟩ := exists_segments_join h hname
  have hbody : ∃ before, (p.join ⟨name⟩).body = before ++ [name] := by
    unfold body
    rw [hjoin]
    split
    · exact ⟨lead.tail, List.tail_append_of_ne_nil hlead⟩
    · exact ⟨lead, rfl⟩
  obtain ⟨before, hbefore⟩ := hbody
  unfold fileName? components
  rw [hbefore, List.filter_append, List.filter_cons_of_pos (by simp [hname.1]), List.map_append,
    ← List.append_assoc]
  simp [Component.ofSegment, hname.2.1]

theorem fileName?_of_isName (hname : IsName name) : (⟨name⟩ : Path).fileName? = some name := by
  unfold fileName? components body
  rw [anchor_of_isName hname, segments_of_isName hname]
  simp [Component.ofSegment, hname.1, hname.2.1]

theorem extension?_join (h : p.text ≠ "") (hname : IsName name) :
    (p.join ⟨name⟩).extension? = (⟨name⟩ : Path).extension? := by
  rw [extension?, extension?, fileName?_join h hname, fileName?_of_isName hname]

end Path

namespace FileNode

mutual

/-- Every directory gives its entries names, and no two of them the same. -/
def WellNamed : FileNode → Prop
  | .file _ => True
  | .directory entries => (entries.map Prod.fst).Nodup ∧ AllWellNamed entries

/-- The entries of a directory have names, and what they stand for is well named. -/
def AllWellNamed : List (String × FileNode) → Prop
  | [] => True
  | (name, node) :: rest => Path.IsName name ∧ node.WellNamed ∧ AllWellNamed rest

end

theorem of_allWellNamed {entries : List (String × FileNode)} (h : AllWellNamed entries)
    {name : String} {node : FileNode} (hmem : (name, node) ∈ entries) :
    Path.IsName name ∧ node.WellNamed := by
  induction entries with
  | nil => cases hmem
  | cons first rest ih =>
      obtain ⟨hname, hnode, hrest⟩ := h
      rcases List.mem_cons.mp hmem with rfl | hmem
      · exact ⟨hname, hnode⟩
      · exact ih hrest hmem

/-- What an entry stands for is found under its name. -/
theorem lookup_eq_some_iff {entries : List (String × FileNode)}
    (h : (entries.map Prod.fst).Nodup) {name : String} {node : FileNode} :
    entries.lookup name = some node ↔ (name, node) ∈ entries := by
  induction entries with
  | nil => simp
  | cons first rest ih =>
      obtain ⟨hfirst, hrest⟩ := List.nodup_cons.mp h
      obtain ⟨key, value⟩ := first
      rw [List.lookup_cons, List.mem_cons, Prod.mk.injEq]
      by_cases hkey : name = key
      · -- the name stands nowhere else
        subst hkey
        have habsent : (name, node) ∉ rest := fun hmem =>
          hfirst (List.mem_map.mpr ⟨_, hmem, rfl⟩)
        simp [habsent, eq_comm]
      · rw [beq_false_of_ne hkey]
        simp [hkey, ih hrest]

theorem pairwise_mergeSort {entries : List (String × FileNode)}
    (h : (entries.map Prod.fst).Nodup) :
    (entries.mergeSort fun a b => a.1 ≤ b.1).Pairwise fun a b => a.1 < b.1 := by
  have hnodup := ((entries.mergeSort_perm fun a b => a.1 ≤ b.1).map Prod.fst).nodup_iff.mpr h
  have hsorted := @List.pairwise_mergeSort _ (fun a b : String × FileNode => a.1 ≤ b.1)
    (fun a b c hab hbc => by
      simp only [decide_eq_true_eq] at hab hbc ⊢
      exact String.le_trans hab hbc)
    (fun a b => by simpa using String.le_total a.1 b.1) entries
  refine (hsorted.and (List.pairwise_map.mp hnodup)).imp fun {a b} hab => ?_
  have hle : a.1 ≤ b.1 := by simpa using hab.1
  exact String.not_le.mp fun hge => hab.2 (String.le_antisymm hle hge)

theorem WellNamed.get? {n m : FileNode} (h : n.WellNamed) {names : List String}
    (hget : FileNode.get? names n = some m) : m.WellNamed := by
  induction names generalizing n with
  | nil =>
      cases hget
      exact h
  | cons name names ih =>
      cases n with
      | file content => cases hget
      | directory entries =>
          obtain ⟨next, hnext, hrest⟩ := Option.bind_eq_some_iff.mp hget
          have hmem := (lookup_eq_some_iff h.1).mp hnext
          exact ih (of_allWellNamed h.2 hmem).2 hrest

theorem get?_append (names more : List String) (n : FileNode) :
    get? (names ++ more) n = (get? names n).bind (get? more) := by
  induction names generalizing n with
  | nil => rfl
  | cons name names ih =>
      cases n with
      | file content => rfl
      | directory entries =>
          rw [List.cons_append]
          simp only [get?, entries?, Option.bind_eq_bind, Option.bind_some]
          cases entries.lookup name with
          | none => rfl
          | some next => exact ih next

end FileNode

namespace FileTree

/-- Every directory of a tree gives its entries names of their own. -/
def WellNamed (t : FileTree) : Prop := t.root.WellNamed

theorem follow_append (root : FileNode) (place segments more : List String) :
    follow root place (segments ++ more) =
      (follow root place segments).bind fun place => follow root place more := by
  induction segments generalizing place with
  | nil => rfl
  | cons segment segments ih =>
      rw [List.cons_append, follow, follow]
      cases root.get? place with
      | none => rfl
      | some n =>
          cases n with
          | file content => rfl
          | directory entries =>
              dsimp only
              split
              · exact ih place
              · split
                · exact ih place.dropLast
                · split
                  · exact ih (place ++ [segment])
                  · rfl

variable {t : FileTree} {p : Path} {names : List String} {entries : List (String × FileNode)}
  {name : String} {node : FileNode}

theorem find_eq_ok_iff :
    t.find p = .ok node ↔ ∃ names, t.resolve p = .ok names ∧ t.root.get? names = some node := by
  unfold find
  cases hresolve : t.resolve p with
  | error e => simp [bind, Except.bind]
  | ok names =>
      cases hget : t.root.get? names with
      | none => simp [bind, Except.bind, hget, throw, throwThe, MonadExceptOf.throw]
      | some n => simp [bind, Except.bind, hget, pure, Except.pure]

/-- From a place, an empty segment leads to the place itself. -/
theorem eq_of_follow_empty {root : FileNode} {place : List String}
    (h : follow root place [""] = .ok names) : names = place := by
  rw [follow] at h
  cases hget : root.get? place with
  | none =>
      rw [hget] at h
      cases h
  | some n =>
      rw [hget] at h
      cases n with
      | file content => cases h
      | directory entries =>
          cases h
          rfl

theorem resolve_join (hp : t.resolve p = .ok names) (hname : Path.IsName name) :
    t.resolve (p.join ⟨name⟩) = follow t.root names [name] := by
  have hempty : p.text ≠ "" := by
    rintro hempty
    rw [resolve, hempty] at hp
    cases hp
  obtain ⟨lead, hlead, hjoin, hsegments⟩ := Path.exists_segments_join hempty hname
  have hempty' : (p.join ⟨name⟩).text ≠ "" := by
    rintro hempty'
    have hone : (p.join ⟨name⟩).segments = [""] := by
      rw [Path.segments, hempty']
      rfl
    rw [hjoin] at hone
    exact hlead (List.append_eq_singleton_iff.mp hone |>.elim And.left fun h => nomatch h.2)
  obtain ⟨place, hp', hjoin'⟩ : ∃ place, t.start p = (place, p.segments) ∧
      t.start (p.join ⟨name⟩) = (place, lead ++ [name]) := by
    unfold start
    rw [Path.isAbsolute, Path.isAbsolute, Path.anchor_join hempty hname, hjoin]
    split
    · exact ⟨[], rfl, rfl⟩
    · exact ⟨t.here, rfl, rfl⟩
  rw [resolve, if_neg (by simpa using hempty), hp'] at hp
  rw [resolve, if_neg (by simpa using hempty'), hjoin']
  dsimp only at hp ⊢
  rw [follow_append]
  rcases hsegments with hsegments | ⟨rfl, -⟩
  · rw [hsegments, follow_append] at hp
    cases hfollow : follow t.root place lead with
    | error e =>
        rw [hfollow] at hp
        cases hp
    | ok place' =>
        rw [hfollow] at hp
        rw [eq_of_follow_empty hp]
        rfl
  · rw [hp]
    rfl

/-- A directory leads on to what it names. -/
theorem find_join (hp : t.find p = .ok (.directory entries)) (hname : Path.IsName name)
    (hlookup : entries.lookup name = some node) : t.find (p.join ⟨name⟩) = .ok node := by
  obtain ⟨names, hresolve, hget⟩ := find_eq_ok_iff.mp hp
  refine find_eq_ok_iff.mpr ⟨names ++ [name], ?_, ?_⟩
  · rw [resolve_join hresolve hname, follow, hget]
    dsimp only
    rw [if_neg (by rw [hname.1]; exact Bool.false_ne_true), if_neg hname.2.1, hlookup]
    rfl
  · rw [FileNode.get?_append, hget]
    simp [FileNode.get?, FileNode.entries?, hlookup]

theorem readText_of_find {content : ByteArray} (h : t.find p = .ok (.file content)) :
    t.readText p = match String.fromUTF8? content with
      | some text => .ok text
      | none => .error .notText := by
  rw [readText, h]
  simp only [bind, Except.bind]
  cases String.fromUTF8? content <;> rfl

end FileTree

end RouteCoverage
