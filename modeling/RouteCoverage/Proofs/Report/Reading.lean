import RouteCoverage.Report
import RouteCoverage.Text.Split

/-!
# Reports are read back

The table of a report has columns of a least width only, and a step is indented with the blanks
that also stand between the columns.  Still nothing is lost: a number ends where its digits end,
the blanks behind the second number are three and two more for each level, and a name that does
not begin with a blank says where they end.  `Listing.read?` reads a report in this way, and reads
back what was written (`Listing.read?_render`).
-/

namespace RouteCoverage

/-- What the text of a report says. -/
structure Listing where
  file : String
  routeId : String
  entries : List Entry
  covered : Nat
  total : Nat
deriving DecidableEq, Repr

namespace Listing

/-! ### Reading a report -/

/-- The lines of a text, each ended by a line feed. -/
def linesOf (text : String) : List (List Char) := (splitAt '\n' text.toList).dropLast

/-- What stands behind a word at the front of a text. -/
def after? (word : String) (s : List Char) : Option (List Char) :=
  if word.toList.isPrefixOf s then some (s.drop word.toList.length) else none

/-- The number at the front of a text, and what follows. -/
def number (s : List Char) : Nat × List Char :=
  (Nat.ofDigitChars 10 (s.takeWhile Char.isDigit) 0, s.dropWhile Char.isDigit)

/-- The entry that a row of the table shows. -/
def entry? (row : List Char) : Option Entry := do
  let (line, rest) := number (row.dropWhile (· == ' '))
  let (count, rest) := number (rest.dropWhile (· == ' '))
  let hits ← Hits.ofNat? count
  let blanks := (rest.takeWhile (· == ' ')).length
  return ⟨String.ofList (rest.dropWhile (· == ' ')), line, (blanks - 3) / 2, hits⟩

/-- The two numbers of the summary line. -/
def counts? (line : List Char) : Option (Nat × Nat) := do
  let (covered, rest) := number (← after? "Coverage: " line)
  let (total, _) := number (← after? " out of " rest)
  return (covered, total)

/-- Reads the text of a report: five lines, then a row for each entry, and three lines. -/
def read? (text : String) : Option Listing :=
  match linesOf text with
  | file :: routeId :: _ :: _ :: _ :: rest =>
    match rest.reverse with
    | _ :: summary :: _ :: rows => do
      let file ← after? "File: " file
      let routeId ← after? "Route: " routeId
      let entries ← rows.reverse.mapM entry?
      let (covered, total) ← counts? summary
      return ⟨String.ofList file, String.ofList routeId, entries, covered, total⟩
    | _ => none
  | _ => none

/-! ### Lines -/

theorem splitAt_unlines {lines : List String} (h : ∀ line ∈ lines, '\n' ∉ line.toList) :
    splitAt '\n' (unlines lines).toList = lines.map String.toList ++ [[]] := by
  rw [toList_unlines]
  induction lines with
  | nil => rfl
  | cons line lines ih =>
      obtain ⟨hline, hlines⟩ := List.forall_mem_cons.mp h
      rw [List.flatMap_cons, List.append_assoc, List.singleton_append, splitAt_append_cons,
        splitAt_of_not_mem hline, ih hlines]
      rfl

/-- Lines without line feeds are the lines of the text that they make up. -/
theorem linesOf_unlines {lines : List String} (h : ∀ line ∈ lines, '\n' ∉ line.toList) :
    linesOf (unlines lines) = lines.map String.toList := by
  rw [linesOf, splitAt_unlines h, List.dropLast_concat]

theorem after?_append (word : String) (s : List Char) :
    after? word (word.toList ++ s) = some s := by
  have hfront : word.toList.isPrefixOf (word.toList ++ s) = true :=
    List.isPrefixOf_iff_prefix.mpr (List.prefix_append _ _)
  rw [after?, if_pos hfront, List.drop_left]

/-! ### Numbers and blanks -/

theorem isDigit_of_mem_toDigits {n : Nat} {c : Char} (h : c ∈ Nat.toDigits 10 n) :
    c.isDigit = true := Nat.isDigit_of_mem_toDigits (by decide) (by decide) h

theorem number_toDigits_append (n : Nat) {rest : List Char}
    (h : ∀ c ∈ rest.head?, c.isDigit = false) :
    number (Nat.toDigits 10 n ++ rest) = (n, rest) := by
  have htake : rest.takeWhile Char.isDigit = [] := by
    cases rest with
    | nil => rfl
    | cons c rest => exact List.takeWhile_cons_of_neg (by simp [h c rfl])
  have hdrop : rest.dropWhile Char.isDigit = rest := by
    cases rest with
    | nil => rfl
    | cons c rest => exact List.dropWhile_cons_of_neg (by simp [h c rfl])
  rw [number, List.takeWhile_append_of_pos fun c => isDigit_of_mem_toDigits,
    List.dropWhile_append_of_pos fun c => isDigit_of_mem_toDigits, htake, hdrop, List.append_nil,
    Nat.ofDigitChars_ten_toDigits]

theorem toList_pushn (s : String) (c : Char) (n : Nat) :
    (s.pushn c n).toList = s.toList ++ List.replicate n c := by
  rw [String.pushn_eq_repeat_push]
  induction n with
  | zero => simp [Nat.repeat]
  | succ n ih => simp [Nat.repeat, ih, List.replicate_succ']

theorem exists_toList_rightAligned (width : Nat) (text : String) :
    ∃ n, (rightAligned width text).toList = List.replicate n ' ' ++ text.toList := by
  refine ⟨width - text.length, ?_⟩
  rw [rightAligned, String.toList_append, toList_pushn]
  rfl

section

variable {s : List Char}

theorem dropWhile_replicate_append (n : Nat) (h : ∀ c ∈ s.head?, c ≠ ' ') :
    (List.replicate n ' ' ++ s).dropWhile (· == ' ') = s := by
  rw [List.dropWhile_append_of_pos fun c hc => by simp [List.eq_of_mem_replicate hc]]
  cases s with
  | nil => rfl
  | cons c s => exact List.dropWhile_cons_of_neg (by simpa using h c rfl)

theorem takeWhile_replicate_append (n : Nat) (h : ∀ c ∈ s.head?, c ≠ ' ') :
    (List.replicate n ' ' ++ s).takeWhile (· == ' ') = List.replicate n ' ' := by
  rw [List.takeWhile_append_of_pos fun c hc => by simp [List.eq_of_mem_replicate hc]]
  cases s with
  | nil => exact List.append_nil _
  | cons c s => rw [List.takeWhile_cons_of_neg (by simpa using h c rfl), List.append_nil]

end

theorem head?_toDigits_append (n : Nat) (rest : List Char) :
    ∀ c ∈ (Nat.toDigits 10 n ++ rest).head?, c ≠ ' ' := by
  rintro c hc rfl
  obtain ⟨d, digits, hdigits⟩ := List.exists_cons_of_ne_nil (Nat.toDigits_ne_nil (n := n) (b := 10))
  rw [hdigits] at hc
  obtain rfl : d = ' ' := Option.some.inj hc
  exact absurd (isDigit_of_mem_toDigits (hdigits ▸ List.mem_cons_self)) (by decide)

/-! ### The rows of the table -/

/-- A name that can be told from the blanks before it, on a line of its own. -/
def IsPlain (name : String) : Prop := '\n' ∉ name.toList ∧ name.toList.head? ≠ some ' '

instance (name : String) : Decidable (IsPlain name) := inferInstanceAs (Decidable (_ ∧ _))

/-- The row of an entry consists of blanks, two numbers and a name. -/
theorem exists_toList_entryRow (e : Entry) :
    ∃ n m, 0 < m ∧ (Report.entryRow e).toList =
      List.replicate n ' ' ++ (Nat.toDigits 10 e.line ++ (List.replicate m ' ' ++
        (Nat.toDigits 10 e.hits.count ++
          (List.replicate (3 + 2 * e.level) ' ' ++ e.name.toList)))) := by
  obtain ⟨n, hline⟩ := exists_toList_rightAligned 8 (toString e.line)
  obtain ⟨m, hcount⟩ := exists_toList_rightAligned 8 (toString e.hits.count)
  refine ⟨n, 3 + m, by omega, ?_⟩
  have hgap : "   ".toList = List.replicate 3 ' ' := rfl
  rw [Report.entryRow, Report.tableRow, Report.indented]
  rw [Nat.toString_eq_ofList_toDigits] at hline hcount
  simp only [Nat.toString_eq_ofList_toDigits, String.toList_append, hline, hcount, toList_pushn,
    hgap, String.toList_empty, List.nil_append, List.append_assoc,
    ← List.replicate_append_replicate, String.toList_ofList]

theorem entry?_entryRow {e : Entry} (h : IsPlain e.name) :
    entry? (Report.entryRow e).toList = some e := by
  obtain ⟨n, m, hm, hrow⟩ := exists_toList_entryRow e
  have hname : ∀ c ∈ e.name.toList.head?, c ≠ ' ' := by
    rintro c hc rfl
    exact h.2 hc
  have hblank : ∀ (k : Nat) (rest : List Char), 0 < k →
      ∀ c ∈ (List.replicate k ' ' ++ rest).head?, c.isDigit = false := by
    intro k rest hk c hc
    obtain ⟨k, rfl⟩ : ∃ k', k = k' + 1 := ⟨k - 1, by omega⟩
    cases hc
    rfl
  unfold entry?
  rw [hrow, dropWhile_replicate_append n (head?_toDigits_append _ _),
    number_toDigits_append _ (hblank m _ hm)]
  dsimp only
  rw [dropWhile_replicate_append m (head?_toDigits_append _ _),
    number_toDigits_append _ (hblank _ _ (by omega))]
  dsimp only
  rw [takeWhile_replicate_append _ hname, dropWhile_replicate_append _ hname,
    List.length_replicate, String.ofList_toList]
  have hhits : Hits.ofNat? e.hits.count = some e.hits := dif_pos e.hits.count_le
  have hlevel : (3 + 2 * e.level - 3) / 2 = e.level := by omega
  rw [hhits, hlevel]
  rfl

theorem mapM_entry?_entryRow {entries : List Entry} (h : ∀ e ∈ entries, IsPlain e.name) :
    (entries.map fun e => (Report.entryRow e).toList).mapM entry? = some entries := by
  induction entries with
  | nil => rfl
  | cons e entries ih =>
      obtain ⟨he, hentries⟩ := List.forall_mem_cons.mp h
      rw [List.map_cons, List.mapM_cons, entry?_entryRow he, ih hentries]
      rfl

/-! ### Lines without line feeds -/

theorem newline_not_mem_toDigits (n : Nat) : '\n' ∉ Nat.toDigits 10 n :=
  fun h => absurd (isDigit_of_mem_toDigits h) (by decide)

theorem newline_not_mem_entryRow {e : Entry} (h : IsPlain e.name) :
    '\n' ∉ (Report.entryRow e).toList := by
  obtain ⟨n, m, -, hrow⟩ := exists_toList_entryRow e
  rw [hrow]
  simp [List.mem_replicate, newline_not_mem_toDigits, h.1]

theorem newline_not_mem_percentText (covered total : Nat) :
    '\n' ∉ (percentText covered total).toList := by
  have hfixed : ∀ x : Binary64, '\n' ∉ x.toFixed1.toList := by
    intro x
    unfold Binary64.toFixed1
    simp [newline_not_mem_toDigits]
  rw [percentText]
  exact hfixed _

/-- The summary line of a report, with any text for the percentage. -/
def summaryLine (covered total : Nat) (percent : String) : String :=
  "Coverage: " ++ toString covered ++ " out of " ++ toString total ++ " (" ++ percent ++ "%)"

theorem newline_not_mem_summaryLine (covered total : Nat) {percent : String}
    (h : '\n' ∉ percent.toList) : '\n' ∉ (summaryLine covered total percent).toList := by
  unfold summaryLine
  simp [newline_not_mem_toDigits, h]

theorem counts?_summaryLine (covered total : Nat) (percent : String) :
    counts? (summaryLine covered total percent).toList = some (covered, total) := by
  have hline : (summaryLine covered total percent).toList =
      "Coverage: ".toList ++ (Nat.toDigits 10 covered ++ (" out of ".toList ++
        (Nat.toDigits 10 total ++ (" (".toList ++ (percent.toList ++ "%)".toList))))) := by
    unfold summaryLine
    simp only [String.toList_append, List.append_assoc, Nat.toString_eq_ofList_toDigits,
      String.toList_ofList]
  have hof : ∀ rest : List Char, ∀ c ∈ (" out of ".toList ++ rest).head?, c.isDigit = false := by
    simp
  have hparen : ∀ rest : List Char, ∀ c ∈ (" (".toList ++ rest).head?, c.isDigit = false := by
    simp
  unfold counts?
  simp only [hline, after?_append, Option.bind_eq_bind, Option.bind_some,
    number_toDigits_append _ (hof _), number_toDigits_append _ (hparen _), Option.pure_def]

/-- No line of a report contains a line feed if the texts in it contain none. -/
theorem newline_not_mem_lines {file routeId : String} {entries : List Entry}
    (hfile : '\n' ∉ file.toList) (hroute : '\n' ∉ routeId.toList)
    (hentries : ∀ e ∈ entries, IsPlain e.name) (covered total : Nat) :
    ∀ line ∈ Report.lines file routeId entries covered total, '\n' ∉ line.toList := by
  have hhead : '\n' ∉ (Report.tableRow "Line #" "Count" "Route").toList ∧
      '\n' ∉ (Report.tableRow "------" "-----" "-----").toList := by decide
  have hrows : ∀ line ∈ entries.map Report.entryRow, '\n' ∉ line.toList := by
    intro line hline
    obtain ⟨e, he, rfl⟩ := List.mem_map.mp hline
    exact newline_not_mem_entryRow (hentries e he)
  have hsummary := newline_not_mem_summaryLine covered total
    (newline_not_mem_percentText covered total)
  unfold summaryLine at hsummary
  unfold Report.lines
  simp only [List.forall_mem_append, List.forall_mem_cons]
  exact ⟨⟨⟨by simp [hfile], by simp [hroute], by simp, hhead.1, hhead.2, by simp⟩, hrows⟩,
    by simp, hsummary, by simp, by simp⟩

/-! ### Whole reports -/

section

variable {file routeId : String} {entries : List Entry}

theorem linesOf_render (hfile : '\n' ∉ file.toList) (hroute : '\n' ∉ routeId.toList)
    (hentries : ∀ e ∈ entries, IsPlain e.name) :
    linesOf (render file routeId entries).text =
      ("File: ".toList ++ file.toList) :: ("Route: ".toList ++ routeId.toList) :: [] ::
        (Report.tableRow "Line #" "Count" "Route").toList ::
        (Report.tableRow "------" "-----" "-----").toList ::
        ((entries.map fun e => (Report.entryRow e).toList) ++
          [[], (summaryLine (entries.filter Entry.isCovered).length entries.length
            (percentText (entries.filter Entry.isCovered).length entries.length)).toList, []]) := by
  unfold render
  rw [linesOf_unlines (newline_not_mem_lines hfile hroute hentries _ _), Report.lines,
    List.map_append, List.map_append, List.map_map, ← String.toList_append, ← String.toList_append]
  rfl

/-- Reading a report gives back what it was written for. -/
theorem read?_render (hfile : '\n' ∉ file.toList) (hroute : '\n' ∉ routeId.toList)
    (hentries : ∀ e ∈ entries, IsPlain e.name) :
    read? (render file routeId entries).text = some
      { file, routeId, entries, covered := entries.countP (0 < ·.hits.count)
        total := entries.length } := by
  have hcovered : (entries.filter Entry.isCovered).length =
      entries.countP (0 < ·.hits.count) := List.countP_eq_length_filter.symm
  unfold read?
  rw [linesOf_render hfile hroute hentries]
  simp only [List.reverse_append, List.reverse_cons, List.reverse_nil, List.nil_append,
    List.cons_append, List.reverse_reverse, after?_append, mapM_entry?_entryRow hentries,
    counts?_summaryLine, Option.bind_eq_bind, Option.bind_some, String.ofList_toList, hcovered,
    Option.pure_def]

/-- The text of a report determines the file, the route and the entries it was written for.  Its
lines are eight more than the entries, and the two numbers that its summary line gives are those of
the entries that were hit and of all entries. -/
theorem render_text_determines (hfile : '\n' ∉ file.toList) (hroute : '\n' ∉ routeId.toList)
    (hentries : ∀ e ∈ entries, IsPlain e.name) :
    read? (render file routeId entries).text = some
        { file, routeId, entries, covered := entries.countP (0 < ·.hits.count)
          total := entries.length } ∧
      (∀ (file' routeId' : String) (entries' : List Entry), '\n' ∉ file'.toList →
        '\n' ∉ routeId'.toList → (∀ e ∈ entries', IsPlain e.name) →
        (render file' routeId' entries').text = (render file routeId entries).text →
          file' = file ∧ routeId' = routeId ∧ entries' = entries) ∧
      unlines ((linesOf (render file routeId entries).text).map String.ofList) =
        (render file routeId entries).text ∧
      (linesOf (render file routeId entries).text).length = entries.length + 8 := by
  have hread := read?_render hfile hroute hentries
  refine ⟨hread, fun file' routeId' entries' hfile' hroute' hentries' htext => ?_, ?_, ?_⟩
  · rw [← htext, read?_render hfile' hroute' hentries'] at hread
    cases hread
    exact ⟨rfl, rfl, rfl⟩
  · unfold render
    rw [linesOf_unlines (newline_not_mem_lines hfile hroute hentries _ _), List.map_map]
    simp [Function.comp_def]
  · rw [linesOf_render hfile hroute hentries]
    simp

end

/-- A report with numbers wider than their columns, a step without a name and a deep one. -/
theorem render_text_determines_wide :
    let entries : List Entry := [⟨"from", 1234567890, 0, .ofNat 0xFFFFFFFFFFFFFFFF⟩,
      ⟨"", 2, 3, .ofNat 0⟩, ⟨"1 to", 3, 11, .ofNat 12⟩]
    ('\n' ∉ "R.java".toList ∧ '\n' ∉ "a b".toList ∧ ∀ e ∈ entries, IsPlain e.name) ∧
      read? (render "R.java" "a b" entries).text = some ⟨"R.java", "a b", entries, 2, 3⟩ ∧
      (linesOf (render "R.java" "a b" entries).text).length = 11 := by
  have hentries : ∀ e ∈ [(⟨"from", 1234567890, 0, .ofNat 0xFFFFFFFFFFFFFFFF⟩ : Entry),
      ⟨"", 2, 3, .ofNat 0⟩, ⟨"1 to", 3, 11, .ofNat 12⟩], IsPlain e.name := by decide
  have h := @render_text_determines "R.java" "a b" _ (by decide) (by decide) hentries
  exact ⟨⟨by decide, by decide, hentries⟩, h.1, h.2.2.2⟩

end Listing

end RouteCoverage
