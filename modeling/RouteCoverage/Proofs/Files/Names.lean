import RouteCoverage.Proofs.Files.Lookup

/-!
# Paths that go on by names

A path is its segments with slashes between them (`segments_joinSegments`).  Joining names to a path
one after the other adds them to its components (`components_joinNames`), and gives the same path as
joining them at once, as a path of their own (`joinNames_eq_join`).
-/

namespace RouteCoverage

namespace Path

/-! ### Segments -/

theorem joinSegments_cons {segment : String} {segments : List String} (h : segments ≠ []) :
    joinSegments (segment :: segments) = segment ++ "/" ++ joinSegments segments :=
  String.intercalate_cons_of_ne_nil h

theorem slash_not_mem {p : Path} {segment : String} (h : segment ∈ p.segments) :
    '/' ∉ segment.toList := by
  intro hslash
  obtain ⟨piece, hpiece, rfl⟩ := List.mem_map.mp h
  rw [String.toList_ofList] at hslash
  exact (mem_of_mem_splitAt hpiece hslash).2 rfl

theorem segments_joinSegments {segments : List String} (hne : segments ≠ [])
    (h : ∀ segment ∈ segments, '/' ∉ segment.toList) :
    (⟨joinSegments segments⟩ : Path).segments = segments := by
  induction segments with
  | nil => exact absurd rfl hne
  | cons segment rest ih =>
      have hfirst : splitAt '/' segment.toList = [segment.toList] :=
        splitAt_of_not_mem (h segment List.mem_cons_self)
      cases rest with
      | nil =>
          have htext : joinSegments [segment] = segment := String.intercalate_singleton
          rw [Path.segments, htext, hfirst, List.map_singleton, String.ofList_toList]
      | cons next rest =>
          have hrest : (⟨joinSegments (next :: rest)⟩ : Path).segments = next :: rest :=
            ih (List.cons_ne_nil _ _) fun s hs => h s (List.mem_cons_of_mem segment hs)
          have htext : (joinSegments (segment :: next :: rest)).toList =
              segment.toList ++ '/' :: (joinSegments (next :: rest)).toList := by
            rw [joinSegments_cons (List.cons_ne_nil _ _), String.toList_append,
              String.toList_append, List.append_assoc]
            rfl
          rw [Path.segments, htext, splitAt_append_cons, hfirst, List.map_append,
            List.map_singleton, String.ofList_toList]
          exact congrArg (segment :: ·) hrest

theorem joinSegments_segments (p : Path) : joinSegments p.segments = p.text := by
  have hjoin : ∀ pieces : List (List Char),
      (joinSegments (pieces.map String.ofList)).toList = joinWith '/' pieces := by
    intro pieces
    induction pieces with
    | nil => rfl
    | cons piece pieces ih =>
        cases pieces with
        | nil => simp [joinSegments, joinWith]
        | cons next pieces =>
            show _ = piece ++ '/' :: joinWith '/' (next :: pieces)
            rw [List.map_cons, joinSegments_cons (by simp), String.toList_append,
              String.toList_append, ih, String.toList_ofList, List.append_assoc]
            rfl
  rw [← String.toList_inj, Path.segments, hjoin, joinWith_splitAt]

/-! ### Joining a name -/

variable {p : Path} {name : String} {names : List String}

/-- What stands between a path and a name that is joined to it. -/
def separator (p : Path) : String := if p.text.endsWith "/" then "" else "/"

theorem join_of_not_isAbsolute {q : Path} (h : p.text ≠ "") (hq : q.isAbsolute = false) :
    p.join q = ⟨p.text ++ p.separator ++ q.text⟩ := by
  unfold join separator
  rw [if_neg (by rw [hq]; exact Bool.false_ne_true)]
  by_cases hends : p.text.endsWith "/" = true <;> simp [hends, h]

theorem ne_empty_of_isName (h : IsName name) : name ≠ "" := by
  rintro rfl
  exact absurd h.1 (by decide)

theorem text_join_ne_empty (h : p.text ≠ "") (hname : IsName name) :
    (p.join ⟨name⟩).text ≠ "" := by
  rw [join_of_not_isAbsolute h (isAbsolute_of_isName hname)]
  intro hempty
  exact ne_empty_of_isName hname (String.append_eq_empty_iff.mp hempty).2

/-- The component that a name is. -/
theorem ofSegment_of_isName (h : IsName name) : Component.ofSegment name = .normal name :=
  if_neg h.2.1

theorem components_join (h : p.text ≠ "") (hname : IsName name) :
    (p.join ⟨name⟩).components = p.components ++ [.normal name] := by
  obtain ⟨lead, hlead, hjoin, hp⟩ := exists_segments_join h hname
  have hanchor := anchor_join h hname
  have hbody : ∃ more, (more = [] ∨ more = [""]) ∧ ∃ body, p.body = body ++ more ∧
      (p.join ⟨name⟩).body = body ++ [name] := by
    obtain ⟨more, hmore, hsegments⟩ : ∃ more, (more = [] ∨ more = [""]) ∧
        p.segments = lead ++ more := by
      rcases hp with hp | ⟨hp, -⟩
      · exact ⟨[""], .inr rfl, hp⟩
      · exact ⟨[], .inl rfl, by rw [hp, List.append_nil]⟩
    refine ⟨more, hmore, ?_⟩
    unfold body
    rw [hanchor, hjoin, hsegments]
    split
    · exact ⟨lead.tail, List.tail_append_of_ne_nil hlead, List.tail_append_of_ne_nil hlead⟩
    · exact ⟨lead, rfl, rfl⟩
  obtain ⟨more, hmore, body, hbody, hbody'⟩ := hbody
  have htrivial : more.filter (!isTrivial ·) = [] := by
    rcases hmore with rfl | rfl <;> rfl
  have hkept : [name].filter (!isTrivial ·) = [name] := by simp [hname.1]
  unfold components
  rw [hanchor, hbody, hbody', List.filter_append, List.filter_append, htrivial, hkept,
    List.append_nil, List.map_append, List.append_assoc, List.map_singleton,
    ofSegment_of_isName hname]

/-! ### Joining names -/

def joinNames (p : Path) (names : List String) : Path :=
  names.foldl (fun p name => p.join ⟨name⟩) p

@[simp] theorem joinNames_nil (p : Path) : p.joinNames [] = p := rfl

@[simp] theorem joinNames_cons (p : Path) (name : String) (names : List String) :
    p.joinNames (name :: names) = (p.join ⟨name⟩).joinNames names := rfl

/-- Joining names adds them to the components. -/
theorem components_joinNames (h : p.text ≠ "") (hnames : ∀ name ∈ names, IsName name) :
    (p.joinNames names).components = p.components ++ names.map .normal := by
  induction names generalizing p with
  | nil => rw [joinNames_nil, List.map_nil, List.append_nil]
  | cons name names ih =>
      have hname : IsName name := hnames name List.mem_cons_self
      rw [joinNames_cons, ih (text_join_ne_empty h hname)
        fun n hn => hnames n (List.mem_cons_of_mem name hn), components_join h hname,
        List.append_assoc, List.map_cons, List.singleton_append]

theorem isAbsolute_joinSegments (hne : names ≠ []) (hnames : ∀ name ∈ names, IsName name) :
    (⟨joinSegments names⟩ : Path).isAbsolute = false := by
  have hsegments : (⟨joinSegments names⟩ : Path).segments = names :=
    segments_joinSegments hne fun name h => (hnames name h).2.2
  have hanchor : (⟨joinSegments names⟩ : Path).anchor = none := by
    unfold anchor
    rw [hsegments]
    split
    · exact absurd (hnames "" List.mem_cons_self).1 (by decide)
    · exact absurd (hnames "." List.mem_cons_self).1 (by decide)
    · rfl
  rw [isAbsolute, hanchor]
  rfl

theorem separator_join (h : p.text ≠ "") (hname : IsName name) :
    (p.join ⟨name⟩).separator = "/" := by
  unfold separator
  rw [if_neg]
  rw [join_of_not_isAbsolute h (isAbsolute_of_isName hname)]
  intro hends
  rw [← String.endsWith_toSlice, String.Slice.endsWith_string_iff, String.copy_toSlice,
    String.toList_append] at hends
  obtain ⟨before, hbefore⟩ := hends
  have hlast : name.toList.getLast? = some '/' := by
    have hne : name.toList ≠ [] := by
      rw [ne_eq, String.toList_eq_nil_iff]
      exact ne_empty_of_isName hname
    have := congrArg List.getLast? hbefore
    rw [List.getLast?_append_of_ne_nil _ hne] at this
    rw [← this]
    exact List.getLast?_concat
  exact hname.2.2 (List.mem_of_getLast? hlast)

/-- Joining names one after the other is joining them as a path of their own. -/
theorem joinNames_eq_join (h : p.text ≠ "") (hne : names ≠ [])
    (hnames : ∀ name ∈ names, IsName name) :
    p.joinNames names = p.join ⟨joinSegments names⟩ := by
  induction names generalizing p with
  | nil => exact absurd rfl hne
  | cons name names ih =>
      have hname : IsName name := hnames name List.mem_cons_self
      have hrest := fun n hn => hnames n (List.mem_cons_of_mem name hn)
      rw [joinNames_cons]
      by_cases hlast : names = []
      · rw [hlast, joinNames_nil, joinSegments, String.intercalate_singleton]
      · rw [ih (text_join_ne_empty h hname) hlast hrest,
          join_of_not_isAbsolute (text_join_ne_empty h hname) (isAbsolute_joinSegments hlast hrest),
          separator_join h hname, join_of_not_isAbsolute h (isAbsolute_of_isName hname),
          join_of_not_isAbsolute h (isAbsolute_joinSegments hne hnames), joinSegments_cons hlast]
        simp only [String.append_assoc]

end Path

end RouteCoverage
