import RouteCoverage.Pattern
import RouteCoverage.Pattern.Usual
import RouteCoverage.Proofs.Pattern.Places
import RouteCoverage.Proofs.Pattern.Reading

/-!
# Wildcards

A wildcard text is cut at its stars, its pieces are escaped, and what that writes is read as an
expression.  Each escaped character is read as itself (`Wildcard.reads_escapeChar`) and each gap as
any characters of one line, so the parts that are read follow the pieces (`Wildcard.reads_pieces`),
and a match of them fills the gaps between the pieces (`Wildcard.matches_parts`).
-/

namespace RouteCoverage

/-- A text stands between two places of another. -/
def Between (text : List Char) : List Char → Nat → Nat → Prop
  | [], p, q => p = q
  | c :: u, p, q => text[p]? = some c ∧ Between text u (p + 1) q

namespace Between

variable {text u v : List Char} {p q : Nat}

theorem append : Between text (u ++ v) p q ↔ ∃ m, Between text u p m ∧ Between text v m q := by
  induction u generalizing p with
  | nil => exact ⟨fun h => ⟨p, rfl, h⟩, fun ⟨m, hm, h⟩ => hm ▸ h⟩
  | cons c u ih =>
      constructor
      · rintro ⟨hc, h⟩
        obtain ⟨m, hu, hv⟩ := ih.mp h
        exact ⟨m, ⟨hc, hu⟩, hv⟩
      · rintro ⟨m, ⟨hc, hu⟩, hv⟩
        exact ⟨hc, ih.mpr ⟨m, hu, hv⟩⟩

/-- Up to the end of a text stands what is left of it. -/
theorem length_iff (hp : p ≤ text.length) : Between text u p text.length ↔ u = text.drop p := by
  induction u generalizing p with
  | nil =>
      rw [Between, eq_comm, @eq_comm _ [] (text.drop p), List.drop_eq_nil_iff]
      omega
  | cons c u ih =>
      rw [Between]
      rcases Nat.lt_or_eq_of_le hp with hlt | rfl
      · rw [ih hlt, List.getElem?_eq_getElem hlt, List.drop_eq_getElem_cons hlt, List.cons_eq_cons,
          Option.some_inj, eq_comm]
      · simp

end Between

namespace Wildcard

open Expression Expression.Progress

/-- A name is made of pieces and of gaps between them, which stay on their line. -/
def Fills (pieces : List (List Char)) (name : List Char) : Prop :=
  ∃ gaps : List (List Char), gaps.length + 1 = pieces.length ∧ (∀ g ∈ gaps, '\n' ∉ g) ∧
    name = (List.zipWith (· ++ ·) pieces (gaps ++ [[]])).flatten

theorem fills_singleton {piece name : List Char} : Fills [piece] name ↔ name = piece := by
  constructor
  · rintro ⟨gaps, hlength, -, rfl⟩
    obtain rfl : gaps = [] := List.eq_nil_of_length_eq_zero (Nat.succ.inj hlength)
    simp
  · rintro rfl
    exact ⟨[], rfl, by simp, by simp⟩

theorem fills_cons_cons {piece next name : List Char} {pieces : List (List Char)} :
    Fills (piece :: next :: pieces) name ↔
      ∃ g rest, '\n' ∉ g ∧ Fills (next :: pieces) rest ∧ name = piece ++ (g ++ rest) := by
  constructor
  · rintro ⟨gaps, hlength, hline, rfl⟩
    cases gaps with
    | nil => cases hlength
    | cons g gaps =>
        rw [List.forall_mem_cons] at hline
        refine ⟨g, _, hline.1, ⟨gaps, Nat.succ.inj hlength, hline.2, rfl⟩, ?_⟩
        simp
  · rintro ⟨g, _, hg, ⟨gaps, hlength, hline, rfl⟩, rfl⟩
    refine ⟨g :: gaps, congrArg (· + 1) hlength, List.forall_mem_cons.mpr ⟨hg, hline⟩, ?_⟩
    simp

/-! ### Reading the written expression -/

/-- The part that a character of a piece is read as. -/
def charPart (c : Char) : Part := ⟨.char c, 0⟩

def gapPart : Part := ⟨.times 0 none (.set (· != '\n')), 1⟩

/-- The parts that pieces with gaps between them are read as. -/
def parts : List (List Char) → List Part
  | [] => []
  | [piece] => piece.map charPart
  | piece :: next :: pieces => piece.map charPart ++ gapPart :: parts (next :: pieces)

def addAll (p : Progress) (added : List Part) : Progress := added.foldl Progress.add p

theorem addAll_eq (p : Progress) (added : List Part) : addAll p added =
    { p with level := { p.level with items := (added.map some).reverse ++ p.level.items } } := by
  induction added generalizing p with
  | nil => rfl
  | cons part added ih =>
      show addAll (p.add part) added = _
      rw [ih]
      simp [Progress.add, Level.add]

theorem addAll_append (p : Progress) (added more : List Part) :
    addAll p (added ++ more) = addAll (addAll p added) more := List.foldl_append

theorem flags_addAll (p : Progress) (added : List Part) : (addAll p added).flags = p.flags := by
  rw [addAll_eq]

/-- The items of a level that two of them enclose. -/
theorem sequence_enclosed (first last : Part) (inner : List Part) :
    Level.sequence ⟨[], some last :: ((inner.map some).reverse ++ [some first])⟩ =
      let all := first :: inner ++ [last]
      ⟨.seqAll (all.map (·.regex)), 1 + (all.map (·.depth)).foldl max 0⟩ := by
  have hitems : (some last :: ((inner.map some).reverse ++ [some first])).reverse =
      (first :: inner ++ [last]).map some := by simp
  have hfilter : ((first :: inner ++ [last]).map some).filterMap id = first :: inner ++ [last] := by
    simp [List.filterMap_map]
  unfold Level.sequence
  rw [hitems]
  dsimp only
  cases inner with
  | nil => rfl
  | cons part inner =>
      show (⟨.seqAll (_ : List Regex), _⟩ : Part) = _
      rw [← hfilter]
      rfl

theorem foldl_max_le {l : List Nat} {a b : Nat} (ha : a ≤ b) (hl : ∀ d ∈ l, d ≤ b) :
    l.foldl max a ≤ b := by
  induction l generalizing a with
  | nil => exact ha
  | cons d l ih =>
      rw [List.forall_mem_cons] at hl
      exact ih (Nat.max_le.mpr ⟨ha, hl.1⟩) hl.2

theorem depth_of_mem_parts {pieces : List (List Char)} {part : Part} (h : part ∈ parts pieces) :
    part.depth ≤ 1 := by
  induction pieces with
  | nil => cases h
  | cons piece pieces ih =>
      have hchar : part ∈ piece.map charPart → part.depth ≤ 1 := by
        intro hmem
        obtain ⟨c, -, rfl⟩ := List.mem_map.mp hmem
        exact Nat.zero_le 1
      cases pieces with
      | nil => exact hchar h
      | cons next pieces =>
          rw [parts, List.mem_append, List.mem_cons] at h
          rcases h with h | rfl | h
          · exact hchar h
          · exact Nat.le_refl 1
          · exact ih h

theorem reluctant_of_ne {s : List Char} (hs : s.head? ≠ some '?') : reluctant s = s := by
  unfold reluctant
  split
  · exact absurd rfl hs
  · rfl

theorem head?_escape_append {s : List Char} (hs : s.head? ≠ some '?') (piece : List Char) :
    (escape piece ++ s).head? ≠ some '?' := by
  cases piece with
  | nil => exact hs
  | cons c piece =>
      rw [escape, List.flatMap_cons, escapeChar]
      split
      · simp
      · next hc =>
          rintro h
          obtain rfl : c = '?' := by simpa using h
          exact hc (by decide)

section

variable {p : Progress}

theorem skip_of_initial (hp : p.flags = .initial) (s : List Char) : p.flags.skip s = s := by
  rw [hp]
  rfl

variable [Dialect]

theorem read?_of_mem_metaChars (f : Flags) {c : Char} (hc : c ∈ metaChars) (s : List Char) :
    Escape.read? f (c :: s) = some (.char c, s) := by
  have hplain : metaChars.all Escape.isPlain = true := by decide +kernel
  rw [Escape.read?, if_pos (List.all_eq_true.mp hplain c hc)]
  -- none of the letters and signs that have an escape of their own is among them
  all_goals
    rintro rfl
    exact absurd hc (by decide)

theorem step?_of_not_mem_metaChars {c : Char} (hc : c ∉ metaChars) (s : List Char) :
    p.step? c s = some (p.addChar c, s) := by
  unfold step?
  split
  case h_13 => rfl
  all_goals exact absurd (by decide) hc

theorem reads_escapeChar (hp : p.flags = .initial) (c : Char) (s : List Char) :
    Reads p (escapeChar c ++ s) (p.add (charPart c)) s := by
  have hchar : p.addChar c = p.add (charPart c) := by
    unfold addChar
    rw [hp]
    rfl
  unfold escapeChar
  split
  · next hc =>
      refine .step (skip_of_initial hp _) ?_ .refl
      show (Escape.read? p.flags (c :: s)).map _ = _
      rw [read?_of_mem_metaChars _ hc, Option.map_some, ← hchar]
      rfl
  · next hc =>
      refine .step (skip_of_initial hp _) ?_ .refl
      rw [← hchar]
      exact step?_of_not_mem_metaChars hc s

theorem reads_escape (hp : p.flags = .initial) (piece s : List Char) :
    Reads p (escape piece ++ s) (addAll p (piece.map charPart)) s := by
  induction piece generalizing p with
  | nil => exact .refl
  | cons c piece ih =>
      have hwritten : escape (c :: piece) ++ s = escapeChar c ++ (escape piece ++ s) := by
        rw [escape, List.flatMap_cons, List.append_assoc]
        rfl
      rw [hwritten]
      exact (reads_escapeChar hp c _).trans (ih hp)

/-- A gap is read as any characters of one line; a question mark behind it would be part of it. -/
theorem reads_gap (hp : p.flags = .initial) {s : List Char} (hs : s.head? ≠ some '?') :
    Reads p (gap ++ s) (p.add gapPart) s := by
  have hdot : p.step? '.' ('*' :: s) = some (p.addSet (· != '\n'), '*' :: s) := by
    rw [step?, hp]
    rfl
  have hstar : (p.addSet (· != '\n')).step? '*' s = some (p.add gapPart, s) := by
    rw [step?, reluctant_of_ne hs]
    rfl
  exact .step (skip_of_initial hp _) hdot (.step (skip_of_initial hp _) hstar .refl)

/-- The pieces of a wildcard text are read one after another, with gaps between them. -/
theorem reads_pieces (hp : p.flags = .initial) (pieces : List (List Char)) :
    Reads p (gap.intercalate (pieces.map escape) ++ ['$']) (addAll p (parts pieces)) ['$'] ∧
      (gap.intercalate (pieces.map escape) ++ ['$']).head? ≠ some '?' := by
  induction pieces generalizing p with
  | nil => exact ⟨.refl, by decide⟩
  | cons piece pieces ih =>
      cases pieces with
      | nil =>
          rw [List.map_singleton, List.intercalate_singleton]
          exact ⟨reads_escape hp piece ['$'], head?_escape_append (by decide) piece⟩
      | cons next pieces =>
          obtain ⟨hrest, hhead⟩ := @ih ((addAll p (piece.map charPart)).add gapPart)
            ((flags_addAll p _).trans hp)
          have hwritten : gap.intercalate ((piece :: next :: pieces).map escape) ++ ['$'] =
              escape piece ++
                (gap ++ (gap.intercalate ((next :: pieces).map escape) ++ ['$'])) := by
            simp only [List.map_cons, List.intercalate_cons_cons, List.append_assoc]
          rw [hwritten, parts, addAll_append]
          refine ⟨?_, head?_escape_append (by simp [gap]) piece⟩
          exact (reads_escape hp piece _).trans
            ((reads_gap ((flags_addAll p _).trans hp) hhead).trans hrest)

theorem part?_written (text : List Char) : ∃ part, Expression.part? (written text) = some part ∧
    part.regex = .seqAll (.look .textStart :: (parts (splitAt '*' text)).map (·.regex) ++
      [.look .textEnd]) ∧ part.depth ≤ 2 := by
  let inner := parts (splitAt '*' text)
  let first := start.addLook .textStart
  have hflags : (addAll first inner).flags = .initial := flags_addAll first inner
  have hreads : Reads start (written text) ((addAll first inner).addLook .textEnd) [] := by
    have hinner : Reads first _ (addAll first inner) ['$'] := (reads_pieces rfl _).1
    have hlast := (addAll first inner).reads_dollar
    rw [hflags] at hlast
    exact .step rfl rfl (hinner.trans hlast)
  have hlevel : ((addAll first inner).addLook .textEnd).level.toPart =
      Level.sequence ⟨[], some ⟨.look .textEnd, 0⟩ ::
        ((inner.map some).reverse ++ [some ⟨.look .textStart, 0⟩])⟩ := by
    rw [addAll_eq]
    rfl
  refine ⟨((addAll first inner).addLook .textEnd).level.toPart, ?_, ?_⟩
  · rw [part?_eq, hreads.readAll?_eq, readAll?_nil, Option.bind_some, addAll_eq]
    exact if_pos rfl
  · rw [hlevel, sequence_enclosed]
    refine ⟨by simp [inner], Nat.add_le_add_left (foldl_max_le (Nat.zero_le 1) ?_) 1⟩
    intro d hd
    obtain ⟨part, hpart, rfl⟩ := List.mem_map.mp hd
    simp only [List.cons_append, List.mem_cons, List.mem_append, List.not_mem_nil,
      or_false] at hpart
    rcases hpart with rfl | hpart | rfl
    · exact Nat.zero_le 1
    · exact depth_of_mem_parts hpart
    · exact Nat.zero_le 1

end

/-! ### Matches -/

section

variable {text : List Char} {p q : Nat}

theorem matches_char {c : Char} :
    (Regex.char c).Matches text p q ↔ text[p]? = some c ∧ q = p + 1 := by
  constructor
  · rintro ⟨⟨d, hd, hc⟩, rfl⟩
    obtain rfl := eq_of_beq hc
    exact ⟨hd, rfl⟩
  · rintro ⟨hc, rfl⟩
    exact ⟨⟨c, hc, beq_self_eq_true c⟩, rfl⟩

theorem matches_piece (piece : List Char) :
    (Regex.seqAll ((piece.map charPart).map (·.regex))).Matches text p q ↔
      Between text piece p q := by
  induction piece generalizing p with
  | nil => exact Iff.rfl
  | cons c piece ih =>
      rw [List.map_cons, List.map_cons, Regex.matches_seqAll_cons]
      constructor
      · rintro ⟨m, hc, h⟩
        obtain ⟨hat, rfl⟩ := matches_char.mp hc
        exact ⟨hat, ih.mp h⟩
      · rintro ⟨hat, h⟩
        exact ⟨p + 1, matches_char.mpr ⟨hat, rfl⟩, ih.mpr h⟩

theorem steps_set {chars : CharSet} {n : Nat} :
    Steps ((Regex.set chars).Matches text) n p q ↔
      ∃ u : List Char, u.length = n ∧ (∀ c ∈ u, chars c = true) ∧ Between text u p q := by
  induction n generalizing p with
  | zero =>
      constructor
      · intro h
        exact ⟨[], rfl, by simp, h⟩
      · rintro ⟨u, hu, -, h⟩
        obtain rfl := List.eq_nil_of_length_eq_zero hu
        exact h
  | succ n ih =>
      constructor
      · rintro ⟨_, ⟨⟨c, hat, hc⟩, rfl⟩, hsteps⟩
        obtain ⟨u, hu, hchars, h⟩ := ih.mp hsteps
        exact ⟨c :: u, congrArg (· + 1) hu, List.forall_mem_cons.mpr ⟨hc, hchars⟩, hat, h⟩
      · rintro ⟨u, hu, hchars, h⟩
        obtain ⟨c, u, rfl⟩ := List.exists_cons_of_length_eq_add_one hu
        obtain ⟨hat, h⟩ := h
        rw [List.forall_mem_cons] at hchars
        exact ⟨p + 1, ⟨⟨c, hat, hchars.1⟩, rfl⟩, ih.mpr ⟨u, Nat.succ.inj hu, hchars.2, h⟩⟩

theorem matches_gap : gapPart.regex.Matches text p q ↔ ∃ g, '\n' ∉ g ∧ Between text g p q := by
  have hline (g : List Char) : (∀ c ∈ g, (c != '\n') = true) ↔ '\n' ∉ g := by
    simp only [bne_iff_ne]
    exact ⟨fun h hmem => h _ hmem rfl, fun h c hc hn => h (hn ▸ hc)⟩
  constructor
  · rintro ⟨more, -, hsteps⟩
    obtain ⟨g, -, hg, h⟩ := steps_set.mp hsteps
    exact ⟨g, (hline g).mp hg, h⟩
  · rintro ⟨g, hg, h⟩
    refine ⟨g.length, by simp, ?_⟩
    rw [Nat.zero_add]
    exact steps_set.mpr ⟨g, rfl, (hline g).mpr hg, h⟩

/-- The parts of pieces match what is made of them and of gaps between them. -/
theorem matches_parts {pieces : List (List Char)} (hpieces : pieces ≠ []) :
    (Regex.seqAll ((parts pieces).map (·.regex))).Matches text p q ↔
      ∃ u, Fills pieces u ∧ Between text u p q := by
  induction pieces generalizing p with
  | nil => exact absurd rfl hpieces
  | cons piece pieces ih =>
      cases pieces with
      | nil =>
          rw [parts, matches_piece]
          simp only [fills_singleton, exists_eq_left]
      | cons next pieces =>
          rw [parts, List.map_append, List.map_cons, Regex.matches_seqAll_append]
          simp only [Regex.matches_seqAll_cons, matches_piece, matches_gap,
            ih (List.cons_ne_nil next pieces), fills_cons_cons]
          constructor
          · rintro ⟨j, hpiece, k, ⟨g, hg, hgap⟩, rest, hrest, hbetween⟩
            refine ⟨_, ⟨g, rest, hg, hrest, rfl⟩, ?_⟩
            exact Between.append.mpr ⟨j, hpiece, Between.append.mpr ⟨k, hgap, hbetween⟩⟩
          · rintro ⟨_, ⟨g, rest, hg, hrest, rfl⟩, hbetween⟩
            obtain ⟨j, hpiece, hbetween⟩ := Between.append.mp hbetween
            obtain ⟨k, hgap, hbetween⟩ := Between.append.mp hbetween
            exact ⟨j, hpiece, k, ⟨g, hg, hgap⟩, rest, hrest, hbetween⟩

end

end Wildcard

namespace Pattern

open Expression

/-- In every dialect with room for it, a wildcard text matches exactly the names that are made of
its pieces, taken literally, and of gaps between them. -/
theorem wildcard_matches_iff [Dialect] {raw : String} (hstar : '*' ∈ raw.toList)
    (hsize : Dialect.fits (Wildcard.written raw.toList) = true) :
    ∃ r, (ofText raw).wildcard = some r ∧ ∀ name : String,
      (r.isFoundIn name.toList = true ↔
        Wildcard.Fills (splitAt '*' raw.toList) name.toList) ∧
      (Wildcard.Fills (splitAt '*' raw.toList) name.toList → (ofText raw).isMatch name = true) := by
  obtain ⟨part, hpart, hregex, hdepth⟩ := Wildcard.part?_written raw.toList
  have hwildcard : (ofText raw).wildcard = some part.regex := by
    have hlimit : part.depth ≤ depthLimit := Nat.le_trans hdepth (by decide)
    have hread := regex?_eq_some_iff.mpr ⟨part, hpart, ⟨hlimit, hsize⟩, rfl⟩
    show Wildcard.regex? raw.toList = some part.regex
    rw [Wildcard.regex?, if_pos hstar, hread]
  have hfound (name : String) : part.regex.isFoundIn name.toList = true ↔
      Wildcard.Fills (splitAt '*' raw.toList) name.toList := by
    rw [hregex, Regex.isFoundIn_whole, Wildcard.matches_parts (splitAt_ne_nil '*' raw.toList)]
    simp only [Between.length_iff (Nat.zero_le _), List.drop_zero, exists_eq_right]
  refine ⟨part.regex, hwildcard, fun name => ⟨hfound name, fun hfills => ?_⟩⟩
  unfold isMatch
  rw [hwildcard, Option.any_some, (hfound name).mpr hfills, Bool.or_true, Bool.true_or]

/-- Characters with a meaning, line feeds and characters beyond ASCII stand for themselves. -/
theorem wildcard_matches_literally :
    '*' ∈ "(é.*\n*".toList ∧
      Dialect.fits (Wildcard.written "(é.*\n*".toList) = true ∧
      (ofText "(é.*\n*").isMatch "(é.x\n" = true := by
  have hstar : '*' ∈ "(é.*\n*".toList := by decide
  have hsize : Dialect.fits (Wildcard.written "(é.*\n*".toList) = true := by decide +kernel
  have hfills : Wildcard.Fills (splitAt '*' "(é.*\n*".toList) "(é.x\n".toList :=
    ⟨[['x'], []], by decide, by decide, by decide⟩
  obtain ⟨r, -, hmatches⟩ := wildcard_matches_iff hstar hsize
  exact ⟨hstar, hsize, (hmatches "(é.x\n").2 hfills⟩

end Pattern

end RouteCoverage
