import RouteCoverage.Pattern.Expression

/-!
# Reading an expression is local

A reader takes a value from the front of a text and gives the rest.  The readers of written
expressions are local: put in front of `closing`, the end of a group, a text is read as it is by
itself, and where nothing can be read from it by itself, reading takes the parenthesis of `closing`
if it gets anywhere (`Reader.Local`).  Locality is kept when readers follow one another
(`Reader.Local.bind`), so it holds of each reader because it holds of its parts; the last one is
`Expression.Progress.local_step?`.
-/

namespace RouteCoverage

/-- A reader takes a value from the front of a text and gives the rest. -/
abbrev Reader (α : Type) := List Char → Option (α × List Char)

namespace Reader

/-- What stands behind an expression that is put into a group. -/
def closing : List Char := [')', '$']

/-- What is read from a text `s`, and what from `s` in front of `closing`. -/
inductive Agrees {α : Type} (s : List Char) :
    Option (α × List Char) → Option (α × List Char) → Prop where
  | both {a : α} {rest : List Char} (h : rest <:+ s) :
      Agrees s (some (a, rest)) (some (a, rest ++ closing))
  | neither : Agrees s none none
  | beyond {a : α} {rest : List Char} (h : rest <:+ ['$']) : Agrees s none (some (a, rest))

/-- A reader is local if it reads the same in front of `closing`, or else takes its parenthesis. -/
def Local {α : Type} (read : Reader α) : Prop := ∀ s, Agrees s (read s) (read (s ++ closing))

section

variable {α β : Type} {s s' rest : List Char} {a : α} {x y : Option (α × List Char)}

theorem Agrees.suffix (h : Agrees s (some (a, rest)) y) : rest <:+ s := by
  cases h with
  | both h => exact h

theorem Agrees.mono (h : Agrees s x y) (hs : s <:+ s') : Agrees s' x y := by
  cases h with
  | both h => exact .both (h.trans hs)
  | neither => exact .neither
  | beyond h => exact .beyond h

theorem Agrees.map (h : Agrees s x y) (f : α → β) :
    Agrees s (x.map fun x => (f x.1, x.2)) (y.map fun y => (f y.1, y.2)) := by
  cases h with
  | both h => exact .both h
  | neither => exact .neither
  | beyond h => exact .beyond h

/-- Readers that begin on the parenthesis of `closing` have got beyond the text. -/
theorem Agrees.of_beyond (h : ∀ a rest, y = some (a, rest) → rest <:+ ['$']) :
    Agrees s none y := by
  cases y with
  | none => exact .neither
  | some p => exact .beyond (h p.1 p.2 rfl)

theorem Local.suffix {read : Reader α} (h : Local read) (hread : read s = some (a, rest)) :
    rest <:+ s := by
  have hs := h s
  rw [hread] at hs
  exact hs.suffix

/-! ### Combining readers -/

theorem Local.none : Local fun _ => (none : Option (α × List Char)) := fun _ => .neither

theorem Local.congr {read read' : Reader α} (h : Local read) (heq : ∀ s, read' s = read s) :
    Local read' := by
  rwa [funext heq]

theorem Local.pure (a : α) : Local fun s => some (a, s) := fun _ => .both List.suffix_rfl

theorem Local.given {next : β → Reader α} (o : Option β) (h : ∀ b, Local (next b)) :
    Local fun s => o >>= fun b => next b s := by
  cases o with
  | none => exact Local.none
  | some b => exact h b

theorem Local.givenWith {f : β → α} {after : List Char → List Char} (o : Option β)
    (h : ∀ b, Local fun s => some (f b, after s)) :
    Local fun s => o.map fun b => (f b, after s) := by
  cases o with
  | none => exact Local.none
  | some b => exact h b

theorem Local.bind {first : Reader α} {next : α × List Char → Option (β × List Char)}
    (hfirst : Local first) (hnext : ∀ a, Local fun s => next (a, s)) :
    Local fun s => first s >>= next := by
  intro s
  have hs := hfirst s
  dsimp only
  generalize first s = x at hs ⊢
  generalize first (s ++ closing) = y at hs ⊢
  cases hs with
  | both h => exact (hnext _ _).mono h
  | neither => exact .neither
  | beyond h => exact .of_beyond fun b rest hb => ((hnext _).suffix hb).trans h

theorem Local.map {read : Reader α} (h : Local read) (f : α → β) :
    Local fun s => (read s).map fun x => (f x.1, x.2) := fun s => (h s).map f

theorem Local.cons {next : Char → Reader α} (h : ∀ c, Local (next c)) :
    Local fun s => match s with
      | [] => Option.none
      | c :: s => next c s := by
  intro s
  cases s with
  | nil => exact .of_beyond fun a rest ha => (h ')').suffix ha
  | cons c s => exact (h c s).mono (List.suffix_cons c s)

/-- Skipped text in front of `closing`: what comes next stays the next character, and behind text
that is skipped as a whole comes the closing parenthesis, unless a comment hides it. -/
theorem skip_cases (f : Flags) (s : List Char) :
    (∃ c rest, f.skip s = c :: rest ∧ f.skip (s ++ closing) = c :: (rest ++ closing) ∧
      c :: rest <:+ s) ∨
    (f.skip s = [] ∧ (f.skip (s ++ closing) = [] ∨ f.skip (s ++ closing) = closing)) := by
  unfold Flags.skip
  cases f.verbose with
  | false =>
      cases s with
      | nil => exact .inr ⟨rfl, .inr rfl⟩
      | cons c s => exact .inl ⟨c, s, rfl, rfl, List.suffix_rfl⟩
  | true =>
      rw [if_pos rfl, if_pos rfl]
      generalize false = comment
      induction s generalizing comment with
      | nil => cases comment <;> exact .inr ⟨rfl, by decide⟩
      | cons c s ih =>
          -- a character that is skipped leaves the rest, perhaps inside a comment
          have hskip (comment' : Bool) :=
            (ih comment').imp_left fun ⟨d, rest, hd, hclosing, hrest⟩ =>
              (⟨d, rest, hd, hclosing, hrest.trans (List.suffix_cons c s)⟩ :
                ∃ d rest, skipBlank comment' s = d :: rest ∧
                  skipBlank comment' (s ++ closing) = d :: (rest ++ closing) ∧
                    d :: rest <:+ c :: s)
          simp only [List.cons_append, skipBlank]
          split
          · exact hskip _
          · split
            · exact hskip _
            · split
              · exact hskip _
              · exact .inl ⟨c, s, rfl, rfl, List.suffix_rfl⟩

theorem Local.skip (f : Flags) {next : Char → Reader α} (h : ∀ c, Local (next c)) :
    Local fun s => match f.skip s with
      | [] => Option.none
      | c :: s => next c s := by
  intro s
  rcases skip_cases f s with ⟨c, rest, hs, hclosing, hrest⟩ | ⟨hs, hclosing | hclosing⟩
  · simp only [hs, hclosing]
    exact (h c rest).mono ((List.suffix_cons c rest).trans hrest)
  · simp only [hs, hclosing]
    exact .neither
  · simp only [hs, hclosing]
    exact .of_beyond fun a rest ha => (h ')').suffix ha

/-- Reading on behind a certain character if that comes next, and otherwise with another reader. -/
theorem Local.ifNext (f : Flags) {d : Char} (hd : d ≠ ')') {read behind other : Reader α}
    (hbehind : Local behind) (hother : Local other)
    (hnext : ∀ s rest, f.skip s = d :: rest → read s = behind rest)
    (hnot : ∀ s, (∀ rest, f.skip s ≠ d :: rest) → read s = other s) : Local read := by
  intro s
  rcases skip_cases f s with ⟨c, rest, hs, hclosing, hrest⟩ | ⟨hs, hclosing⟩
  · by_cases hc : c = d
    · subst hc
      rw [hnext _ _ hs, hnext _ _ hclosing]
      exact (hbehind rest).mono ((List.suffix_cons c rest).trans hrest)
    · rw [hnot s (by simp [hs, hc]), hnot (s ++ closing) (by simp [hclosing, hc])]
      exact hother s
  · have hne : ∀ rest, f.skip (s ++ closing) ≠ d :: rest := by
      rcases hclosing with hclosing | hclosing
      · simp [hclosing]
      · rw [hclosing]
        simp [closing, hd.symm]
    rw [hnot s (by simp [hs]), hnot _ hne]
    exact hother s

theorem Local.ifHead {d : Char} (hd : d ≠ ')') {read behind other : Reader α}
    (hbehind : Local behind) (hother : Local other) (hhead : ∀ rest, read (d :: rest) = behind rest)
    (hnot : ∀ s, (∀ rest, s ≠ d :: rest) → read s = other s) : Local read := by
  refine .ifNext .initial hd hbehind hother (fun s rest hs => ?_) hnot
  obtain rfl : s = d :: rest := hs
  exact hhead rest

theorem Local.iteNext (f : Flags) {d : Char} (hd : d ≠ ')') {behind other : Reader α}
    (hbehind : Local behind) (hother : Local other) :
    Local fun s =>
      if (f.skip s).head? = some d then behind (f.skip s).tail else other s := by
  refine .ifNext f hd hbehind hother (fun s rest hs => ?_) fun s hs => ?_
  · rw [hs]
    exact if_pos rfl
  · exact if_neg fun h => (List.head?_eq_some_iff.mp h).elim hs

theorem guard_bind_of {p : Prop} [Decidable p] {next : Unit → Option α} (h : p) :
    (guard p >>= next) = next () := by
  rw [show (guard p : Option Unit) = some () from if_pos h]
  rfl

theorem guard_bind_of_not {p : Prop} [Decidable p] {next : Unit → Option α} (h : ¬p) :
    (guard p >>= next) = Option.none := by
  rw [show (guard p : Option Unit) = Option.none from if_neg h]
  rfl

theorem Local.behindNext (f : Flags) {d : Char} (hd : d ≠ ')') {next : Reader α} (h : Local next) :
    Local fun s => guard ((f.skip s).head? = some d) >>= fun _ => next (f.skip s).tail := by
  refine (Local.iteNext f hd h .none).congr fun s => ?_
  by_cases hhead : (f.skip s).head? = some d
  · rw [guard_bind_of hhead, if_pos hhead]
  · rw [guard_bind_of_not hhead, if_neg hhead]

theorem Local.behind {d : Char} (hd : d ≠ ')') {next : Reader α} (h : Local next) :
    Local fun s => guard (s.head? = some d) >>= fun _ => next s.tail :=
  .behindNext .initial hd h

/-- What comes next is not the closing parenthesis of `closing`, if it is to have a property that
the parenthesis does not have. -/
theorem any_head?_skip_append (f : Flags) {q : Char → Bool} (hq : q ')' = false) (s : List Char) :
    (f.skip (s ++ closing)).head?.any q = (f.skip s).head?.any q := by
  rcases skip_cases f s with ⟨c, rest, hs, hclosing, -⟩ | ⟨hs, hclosing | hclosing⟩
  · rw [hs, hclosing]
    rfl
  · rw [hs, hclosing]
  · rw [hs, hclosing]
    exact hq

theorem dropWhile_append_closing {q : Char → Bool} (hq : q ')' = false) (s : List Char) :
    (s ++ closing).dropWhile q = s.dropWhile q ++ closing := by
  induction s with
  | nil => simp [closing, hq]
  | cons c s ih => by_cases hc : q c = true <;> simp [hc, ih]

/-- A hyphen looks ahead for nothing that `closing` begins with. -/
theorem peek_append_eq_some_iff (f : Flags) {d : Char} (hd : d ≠ ')') (s : List Char) :
    f.peek (s ++ closing) = some d ↔ f.peek s = some d := by
  have hhead (t : List Char) : (t ++ closing).head? = some d ↔ t.head? = some d := by
    cases t with
    | nil => simp [closing, hd.symm]
    | cons c t => rfl
  have hdrop := dropWhile_append_closing (by decide : isBlank ')' = false)
  unfold Flags.peek
  split
  · rw [hdrop]
    cases s.dropWhile isBlank with
    | nil => exact hhead []
    | cons c t =>
        by_cases hc : c = '#'
        · subst hc
          simp only [List.cons_append, hdrop]
          exact hhead _
        · simp [hc]
  · exact hhead s

theorem local_cutAt? {sep : Char} (h : sep ∉ closing) : Local (cutAt? sep) := by
  intro s
  induction s with
  | nil =>
      have hnone : cutAt? sep closing = Option.none := by
        unfold closing at h ⊢
        rw [List.mem_cons, List.mem_singleton, not_or] at h
        rw [cutAt?, if_neg (Ne.symm h.1), cutAt?, if_neg (Ne.symm h.2)]
        rfl
      rw [cutAt?, List.nil_append, hnone]
      exact .neither
  | cons c s ih =>
      rw [List.cons_append, cutAt?, cutAt?]
      split
      · exact .both (List.suffix_cons c s)
      · exact (ih.map (c :: ·)).mono (List.suffix_cons c s)

theorem guard_bind_eq_some_iff {p : Prop} [Decidable p] {next : Unit → Option α} {a : α} :
    (guard p >>= next) = some a ↔ p ∧ next () = some a := by
  by_cases hp : p
  · rw [guard_bind_of hp, and_iff_right hp]
  · rw [guard_bind_of_not hp]
    exact iff_of_false (Option.some_ne_none a).symm fun h => hp h.1

end

end Reader

open Reader

/-! ### Escapes -/

namespace Escape

variable (f : Flags)

theorem local_digits? : ∀ n, Local (digits? f n)
  | 0 => Local.pure []
  | n + 1 => by
      have hskip : Local fun s => match f.skip s with
          | [] => none
          | c :: s =>
            if isHexDigit c then (digits? f n s).map fun x => (c :: x.1, x.2) else none := by
        refine Local.skip f fun c => ?_
        cases isHexDigit c with
        | false => exact Local.none
        | true => exact (local_digits? n).map (c :: ·)
      refine hskip.congr fun s => ?_
      rw [digits?]
      cases f.skip s <;> rfl

theorem local_nameUpTo? (comment : Bool) : Local (nameUpTo? f comment) := by
  intro s
  induction s generalizing comment with
  | nil =>
      have hnone : nameUpTo? f comment closing = none := by
        have hblank : isBlank ')' = false ∧ isBlank '$' = false := by decide
        simp [closing, nameUpTo?, hblank]
      rw [List.nil_append, hnone]
      exact .neither
  | cons c s ih =>
      have hsuffix := List.suffix_cons c s
      rw [List.cons_append, nameUpTo?, nameUpTo?]
      split
      · exact (ih _).mono hsuffix
      · split
        · exact (ih false).mono hsuffix
        · split
          · exact (ih true).mono hsuffix
          · split
            · exact .both hsuffix
            · exact ((ih false).map (c :: ·)).mono hsuffix

theorem local_bracedName? : Local (bracedName? f) := local_nameUpTo? f false

theorem local_numberedInBraces? : Local (numberedInBraces? f) :=
  (local_bracedName? f).bind fun _ => .given _ fun _ => .given _ fun _ => .pure _

theorem local_numberedByDigits? (width : Nat) : Local (numberedByDigits? f width) :=
  (local_digits? f width).bind fun _ => .given _ fun _ => .given _ fun _ => .pure _

theorem local_numbered? (letter : Char) : Local (numbered? f letter) := by
  refine .ifNext f (by decide : '{' ≠ ')') (local_numberedInBraces? f)
    (local_numberedByDigits? f (if letter = 'x' then 2 else if letter = 'u' then 4 else 8))
    (fun s rest hs => ?_) fun s hs => ?_
  · simp only [numbered?, hs]
  · unfold numbered?
    split
    · next rest h => exact absurd h (hs rest)
    · rfl

theorem local_propertyName? : Local (propertyName? f) := by
  refine Local.skip f fun c => ?_
  split
  · exact local_bracedName? f
  · split
    · exact Local.none
    · exact Local.pure [c]

variable [Dialect]

theorem local_named? (negated : Bool) : Local (named? f negated) :=
  .given _ fun _ => (local_propertyName? f).bind fun _ => .given _ fun _ => .pure _

theorem local_namedEdge? : Local (namedEdge? f) :=
  (local_bracedName? f).bind fun _ => .given _ fun _ => .pure _

theorem edge?_of_ne {s : List Char} (h : ∀ inside, s ≠ '{' :: inside) :
    edge? f s = some (.look (.edge .any f.word), s) := by
  unfold edge?
  split
  · exact absurd rfl (h _)
  · rfl

theorem local_edge? : Local (edge? f) := by
  intro s
  cases s with
  | nil =>
      rw [List.nil_append, edge?_of_ne f (by simp), edge?_of_ne f (by simp [closing])]
      exact .both List.suffix_rfl
  | cons c inside =>
      by_cases hc : c = '{'
      · subst hc
        rw [List.cons_append]
        simp only [edge?]
        rw [any_head?_skip_append f (by decide)]
        split
        · exact (local_namedEdge? f inside).mono (List.suffix_cons '{' inside)
        · exact .both List.suffix_rfl
      · rw [edge?_of_ne f (by simp [hc]), edge?_of_ne f (by simp [hc])]
        exact .both List.suffix_rfl

theorem local_read? : Local (read? f) := by
  refine Local.cons fun c => ?_
  split
  case h_1 | h_2 | h_3 => exact local_numbered? f _
  case h_4 | h_5 => exact local_named? f _
  case h_6 => exact local_edge? f
  case h_7 | h_8 | h_9 => exact .given _ fun _ => .pure _
  case h_24 =>
    split
    · exact .pure _
    · exact .none
  all_goals exact .pure _

end Escape

/-! ### Classes in brackets -/

namespace ClassPart

variable (f : Flags)

theorem local_readAsciiName? (negated : Bool) : Local (readAsciiName? negated) := by
  have hcut : Local (cutAt? ':') := local_cutAt? (by decide)
  exact hcut.bind fun _ => .behind (by decide) (.given _ fun _ => .pure _)

theorem local_readAsciiClass? : Local readAsciiClass? := by
  refine .ifHead (by decide : '^' ≠ ')') (local_readAsciiName? true) (local_readAsciiName? false)
    (fun _ => rfl) fun s hs => ?_
  unfold readAsciiClass?
  split
  · exact absurd rfl (hs _)
  · rfl

theorem local_readAscii? : Local readAscii? := by
  refine .ifHead (by decide : ':' ≠ ')') local_readAsciiClass? .none (fun _ => rfl) fun s hs => ?_
  unfold readAscii?
  split
  · exact absurd rfl (hs _)
  · rfl

theorem suffix_of_readAsciiName? {negated : Bool} {s rest : List Char} {a : CharSet × Bool}
    (h : readAsciiName? negated s = some (a, rest)) : ']' :: rest <:+ s := by
  obtain ⟨⟨name, after⟩, hcut, h⟩ := Option.bind_eq_some_iff.mp h
  obtain ⟨hhead, h⟩ := guard_bind_eq_some_iff.mp h
  obtain ⟨set, -, h⟩ := Option.bind_eq_some_iff.mp h
  obtain ⟨rest, rfl⟩ := List.head?_eq_some_iff.mp hhead
  cases h
  exact (local_cutAt? (by decide : ':' ∉ closing)).suffix hcut

theorem suffix_of_readAscii? {s rest : List Char} {a : CharSet × Bool}
    (h : readAscii? s = some (a, rest)) : ']' :: rest <:+ s := by
  unfold readAscii? at h
  split at h
  · next s =>
      unfold readAsciiClass? at h
      refine List.IsSuffix.trans ?_ (List.suffix_cons ':' s)
      split at h
      · exact (suffix_of_readAsciiName? h).trans (List.suffix_cons '^' _)
      · exact suffix_of_readAsciiName? h
  · cases h

theorem readAscii?_append_eq_none {s : List Char} (h : readAscii? s = none) :
    readAscii? (s ++ closing) = none := by
  have hs := local_readAscii? s
  rw [h] at hs
  generalize hread : readAscii? (s ++ closing) = x at hs ⊢
  cases hs with
  | neither => rfl
  | @beyond a rest hrest =>
      have hbracket : ']' :: rest <:+ closing :=
        List.suffix_of_suffix_length_le (suffix_of_readAscii? hread) (List.suffix_append s closing)
          (by simpa [closing] using hrest.length_le)
      exact absurd (hbracket.subset List.mem_cons_self) (by decide)

theorem local_item? [Dialect] (c : Char) : Local (item? f c) := by
  unfold item?
  split
  · exact Escape.local_read? f
  · exact .pure _

/-- The end of a range is the same in front of `closing`, if there is one. -/
theorem rangeEnd?_cases (s : List Char) :
    (∃ c rest, rangeEnd? f s = some (c :: rest) ∧
      rangeEnd? f (s ++ closing) = some (c :: (rest ++ closing)) ∧ c :: rest <:+ s) ∨
    (rangeEnd? f s = some [] ∧
      (rangeEnd? f (s ++ closing) = some [] ∨ rangeEnd? f (s ++ closing) = some closing)) ∨
    (rangeEnd? f s = none ∧ rangeEnd? f (s ++ closing) = none) := by
  unfold rangeEnd?
  rcases skip_cases f s with ⟨c, rest, hs, hclosing, hrest⟩ | ⟨hs, hclosing⟩
  · by_cases hc : c = '-'
    · subst hc
      simp only [hs, hclosing, peek_append_eq_some_iff f (by decide : ']' ≠ ')'),
        peek_append_eq_some_iff f (by decide : '-' ≠ ')')]
      split
      · exact .inr (.inr ⟨rfl, rfl⟩)
      · rcases skip_cases f rest with ⟨d, rest', hs', hclosing', hrest'⟩ | ⟨hs', hclosing'⟩
        · rw [hs', hclosing']
          exact .inl ⟨d, rest', rfl, rfl, hrest'.trans ((List.suffix_cons '-' rest).trans hrest)⟩
        · rw [hs']
          rcases hclosing' with hclosing' | hclosing' <;> rw [hclosing']
          · exact .inr (.inl ⟨rfl, .inl rfl⟩)
          · exact .inr (.inl ⟨rfl, .inr rfl⟩)
    · right; right
      simp [hs, hclosing, hc]
  · rw [hs]
    rcases hclosing with hclosing | hclosing <;> rw [hclosing]
    · exact .inr (.inr ⟨rfl, rfl⟩)
    · exact .inr (.inr ⟨rfl, rfl⟩)

variable [Dialect]

theorem local_readRange? (lo : Char) : Local (readRange? f lo) := by
  refine Local.cons fun c => (local_item? f c).bind fun last => ?_
  cases last with
  | char hi => exact .given _ fun _ => .pure _
  | set chars => exact .none
  | look condition => exact .none

theorem local_readAfter? (first : Escape) : Local (readAfter? f first) := by
  intro s
  unfold readAfter?
  rcases rangeEnd?_cases f s with ⟨c, rest, hs, hclosing, hrest⟩ | ⟨hs, hclosing⟩ | ⟨hs, hclosing⟩
  · rw [hs, hclosing]
    cases first with
    | char lo => exact (local_readRange? f lo (c :: rest)).mono hrest
    | set chars => exact .neither
    | look condition => exact .neither
  · rw [hs]
    rcases hclosing with hclosing | hclosing <;> rw [hclosing]
    · cases first <;> exact .neither
    · cases first with
      | char lo => exact (local_readRange? f lo []).mono List.nil_suffix
      | set chars => exact .neither
      | look condition => exact .neither
  · rw [hs, hclosing]
    cases first with
    | char c => exact Local.given (guard (admits f c)) (fun _ => .pure _) s
    | set chars => exact .both List.suffix_rfl
    | look condition => exact .neither

theorem local_read? (c : Char) : Local (read? f c) :=
  (local_item? f c).bind fun first => local_readAfter? f first

end ClassPart

namespace Bracket

variable (f : Flags)

theorem begin_append (s : List Char) :
    begin f (s ++ closing) = ((begin f s).1, (begin f s).2 ++ closing) ∧ (begin f s).2 <:+ s := by
  unfold begin
  rcases skip_cases f s with ⟨c, rest, hs, hclosing, hrest⟩ | ⟨hs, hclosing⟩
  · by_cases hc : c = '^'
    · subst hc
      rw [hs, hclosing]
      exact ⟨rfl, (List.suffix_cons '^' rest).trans hrest⟩
    · simp [hs, hclosing, hc]
  · rw [hs]
    rcases hclosing with hclosing | hclosing <;> rw [hclosing] <;>
      exact ⟨rfl, List.suffix_rfl⟩

variable [Dialect]

theorem local_open? (b : Bracket) (outer : List Bracket) : Local (open? f b outer) := by
  intro s
  have hascii := ClassPart.local_readAscii? s
  unfold open?
  cases hread : ClassPart.readAscii? s with
  | none =>
      obtain ⟨hbegin, hsuffix⟩ := begin_append f s
      rw [ClassPart.readAscii?_append_eq_none hread]
      simp only [hbegin]
      exact .both hsuffix
  | some found =>
      obtain ⟨⟨chars, negated⟩, rest⟩ := found
      rw [hread] at hascii
      generalize ClassPart.readAscii? (s ++ closing) = x at hascii ⊢
      cases hascii with
      | both h => exact (Local.given (f.class? negated chars) (fun _ => .pure _) rest).mono h

omit [Dialect] in
theorem ne_of_ofChar? {c : Char} {op : ClassOperator} (h : ClassOperator.ofChar? c = some op) :
    c ≠ ')' := by
  rintro rfl
  cases h

theorem local_member? (b : Bracket) (outer : List Bracket) (c : Char) :
    Local (member? f b outer c) := (ClassPart.local_read? f c).bind fun _ => .pure _

theorem local_step? (b : Bracket) (outer : List Bracket) (c : Char) :
    Local (step? f b outer c) := by
  unfold step?
  split
  · exact local_open? f b outer
  · exact .given _ fun _ => .pure _
  · split
    · exact .pure _
    · split
      · next op hop =>
          refine .ifHead (ne_of_ofChar? hop) (.pure _) (local_member? f b outer c)
            (fun rest => if_pos rfl) fun s hs => ?_
          exact if_neg fun h => (List.head?_eq_some_iff.mp h).elim hs
      · exact local_member? f b outer c

theorem suffix_of_read? {n : Nat} {b : Bracket} {outer : List Bracket} {s rest : List Char}
    {part : ClassPart} (h : read? f n b outer s = some (part, rest)) : rest <:+ s := by
  induction n generalizing b outer s with
  | zero => cases h
  | succ n ih =>
      rw [read?] at h
      rcases skip_cases f s with ⟨c, s', hs, -, hsuffix⟩ | ⟨hs, -⟩
      · rw [hs] at h
        have hs' : s' <:+ s := (List.suffix_cons c s').trans hsuffix
        dsimp only at h
        split at h
        · next hstep => exact (ih h).trans (((local_step? f b outer c).suffix hstep).trans hs')
        · next hstep =>
            cases h
            exact ((local_step? f b outer c).suffix hstep).trans hs'
        · cases h
      · rw [hs] at h
        cases h

/-- With enough fuel for either text, a class is read the same in front of `closing`. -/
theorem agrees_read? {n m : Nat} {b : Bracket} {outer : List Bracket} {s : List Char}
    (hn : s.length < n) (hm : (s ++ closing).length < m) :
    Agrees s (read? f n b outer s) (read? f m b outer (s ++ closing)) := by
  induction n generalizing m b outer s with
  | zero => exact absurd hn (Nat.not_lt_zero _)
  | succ n ih =>
      obtain ⟨m, rfl⟩ : ∃ m', m = m' + 1 := ⟨m - 1, by omega⟩
      rw [read?, read?]
      rcases skip_cases f s with ⟨c, rest, hs, hclosing, hrest⟩ | ⟨hs, hclosing⟩
      · rw [hs, hclosing]
        dsimp only
        have hsuffix : rest <:+ s := (List.suffix_cons c rest).trans hrest
        have hlength : rest.length < s.length := hrest.length_le
        have hstep := local_step? f b outer c rest
        generalize step? f b outer c rest = x at hstep ⊢
        generalize step? f b outer c (rest ++ closing) = y at hstep ⊢
        cases hstep with
        | @both p rest' h =>
            cases p with
            | inside b' outer' =>
                have hle := h.length_le
                refine (ih ?_ ?_).mono (h.trans hsuffix)
                · omega
                · rw [List.length_append] at hm ⊢
                  omega
            | done part => exact .both (h.trans hsuffix)
        | neither => exact .neither
        | @beyond p rest' h =>
            cases p with
            | inside b' outer' =>
                exact .of_beyond fun part rest'' hread => (suffix_of_read? f hread).trans h
            | done part => exact .beyond h
      · rw [hs]
        rcases hclosing with hclosing | hclosing
        · rw [hclosing]
          exact .neither
        · rw [hclosing]
          refine .of_beyond fun part rest hread => ?_
          dsimp only [closing] at hread
          split at hread
          · next hstep =>
              exact (suffix_of_read? f hread).trans ((local_step? f b outer ')').suffix hstep)
          · next hstep =>
              cases hread
              exact (local_step? f b outer ')').suffix hstep
          · cases hread

theorem local_class? : Local (class? f) := by
  intro s
  obtain ⟨hbegin, hsuffix⟩ := begin_append f s
  unfold class?
  rw [hbegin]
  exact (agrees_read? f (Nat.lt_succ_self _) (Nat.lt_succ_self _)).mono hsuffix

end Bracket

/-! ### Expressions -/

namespace Expression

variable (f : Flags)

theorem takeDigits_append (back : List Char) (comment : Bool) (s : List Char) :
    takeDigits f (back ++ closing) comment (s ++ closing) =
      ((takeDigits f back comment s).1, (takeDigits f back comment s).2 ++ closing) := by
  induction s generalizing back comment with
  | nil =>
      have hblank : isBlank ')' = false ∧ isBlank '$' = false := by decide
      cases comment <;> simp [closing, takeDigits, hblank]
  | cons c s ih =>
      rw [List.cons_append, takeDigits, takeDigits]
      split
      · exact ih back _
      · split
        · exact ih back false
        · split
          · exact ih back true
          · split
            · rw [ih s false]
            · rfl

theorem suffix_takeDigits {back s : List Char} (comment : Bool) (h : s <:+ back) :
    (takeDigits f back comment s).2 <:+ back := by
  induction s generalizing back comment with
  | nil => exact List.suffix_rfl
  | cons c s ih =>
      have hs : s <:+ back := (List.suffix_cons c s).trans h
      rw [takeDigits]
      split
      · exact ih _ hs
      · split
        · exact ih false hs
        · split
          · exact ih true hs
          · split
            · exact (ih false List.suffix_rfl).trans hs
            · exact List.suffix_rfl

theorem local_count? : Local (count? f) := by
  intro s
  have hblank : isBlank ')' = false := by decide
  unfold count?
  rcases skip_cases f s with ⟨c, rest, hs, hclosing, hrest⟩ | ⟨hs, hclosing⟩
  · rw [hs, hclosing, ← List.cons_append, dropWhile_append_closing hblank]
    generalize ht : (c :: rest).dropWhile isBlank = t
    have hsuffix : t <:+ s := ht ▸ (List.dropWhile_suffix isBlank).trans hrest
    dsimp only
    rw [takeDigits_append]
    dsimp only
    rw [dropWhile_append_closing hblank]
    exact (Local.given (guard _) (fun _ => .given (guard _) fun _ => .pure _) _).mono
      ((List.dropWhile_suffix isBlank).trans
        ((suffix_takeDigits f false List.suffix_rfl).trans hsuffix))
  · rw [hs]
    rcases hclosing with hclosing | hclosing
    · rw [hclosing]
      exact .neither
    · have hdrop : closing.dropWhile isBlank = closing := by decide
      have hnone : takeDigits f closing false closing = ([], closing) :=
        takeDigits_append f [] false []
      rw [hclosing, hdrop]
      dsimp only
      rw [hnone]
      exact .neither

theorem local_most? (least : Nat) : Local (most? f least) :=
  (local_count? f).bind fun most =>
    .given (guard (least ≤ most)) fun _ => .behindNext f (by decide : '}' ≠ ')') (.pure _)

theorem local_upperBound? (least : Nat) : Local (upperBound? f least) := by
  refine .ifNext f (by decide : '}' ≠ ')') (.pure (least, none)) (local_most? f least)
    (fun s rest hs => ?_) fun s hs => ?_
  · simp only [upperBound?, hs]
  · unfold upperBound?
    split
    · next rest h => exact absurd h (hs rest)
    · rfl

theorem local_boundsFrom? (least : Nat) : Local (boundsFrom? f least) := by
  refine .ifNext f (by decide : '}' ≠ ')') (.pure (least, some least))
    (.behindNext f (by decide : ',' ≠ ')') (local_upperBound? f least))
    (fun s rest hs => ?_) fun s hs => ?_
  · simp only [boundsFrom?, hs]
  · by_cases hcomma : (f.skip s).head? = some ','
    · obtain ⟨rest, h⟩ := List.head?_eq_some_iff.mp hcomma
      rw [guard_bind_of hcomma]
      simp only [boundsFrom?, h, List.tail_cons]
    · rw [guard_bind_of_not hcomma]
      unfold boundsFrom?
      split
      · next rest h => exact absurd h (hs rest)
      · next rest h => exact absurd (List.head?_eq_some_iff.mpr ⟨rest, h⟩) hcomma
      · rfl

theorem local_bounds? : Local (bounds? f) :=
  (local_count? f).bind fun least => local_boundsFrom? f least

theorem local_groupName? [Dialect] : Local groupName? := by
  have hcut : Local (cutAt? '>') := local_cutAt? (by decide)
  exact hcut.bind fun _ => .given _ fun _ => .pure _

theorem local_reluctant {α : Type} (a : α) : Local fun s => some (a, reluctant s) := by
  refine .ifHead (by decide : '?' ≠ ')') (.pure a) (.pure a) (fun _ => rfl) fun s hs => ?_
  unfold reluctant
  split
  · exact absurd rfl (hs _)
  · rfl

theorem local_reluctantAfter {α : Type} (a : α) : Local fun s => some (a, reluctantAfter f s) := by
  refine .ifNext f (by decide : '?' ≠ ')') (.pure a) (.pure a) (fun s rest hs => ?_) fun s hs => ?_
  · simp only [reluctantAfter, hs]
  · unfold reluctantAfter
    split
    · next rest h => exact absurd h (hs rest)
    · rfl

/-- Flags are read up to a colon or a parenthesis; in front of `closing` this may be that of it. -/
theorem flags_read?_cases (on : Bool) (seen s : List Char) :
    (∃ g given c rest, (c = ':' ∨ c = ')') ∧ f.read? on seen s = some (g, given, c :: rest) ∧
      f.read? on seen (s ++ closing) = some (g, given, c :: (rest ++ closing)) ∧ rest <:+ s) ∨
    (f.read? on seen s = none ∧ (f.read? on seen (s ++ closing) = none ∨
      ∃ g given, f.read? on seen (s ++ closing) = some (g, given, closing))) := by
  induction s generalizing f on seen with
  | nil =>
      refine .inr ⟨rfl, ?_⟩
      rw [List.nil_append, closing, Flags.read?, if_pos (by decide)]
      split
      · exact .inl rfl
      · exact .inr ⟨f, _, rfl⟩
  | cons c s ih =>
      have hbehind (g : Flags) (on : Bool) (seen : List Char) := (ih g on seen).imp_left
        fun ⟨h, given, d, rest, hd, hs, hclosing, hsuffix⟩ =>
          (⟨h, given, d, rest, hd, hs, hclosing, hsuffix.trans (List.suffix_cons c s)⟩ :
            ∃ h given d rest, (d = ':' ∨ d = ')') ∧
              g.read? on seen s = some (h, given, d :: rest) ∧
              g.read? on seen (s ++ closing) = some (h, given, d :: (rest ++ closing)) ∧
                rest <:+ c :: s)
      rw [List.cons_append, Flags.read?, Flags.read?]
      split
      · next hc =>
          rw [Bool.or_eq_true, decide_eq_true_iff, decide_eq_true_iff] at hc
          split
          · exact .inr ⟨rfl, .inl rfl⟩
          · exact .inl ⟨f, _, c, s, hc, rfl, rfl, List.suffix_cons c s⟩
      · split
        · exact .inr ⟨rfl, .inl rfl⟩
        · split
          · exact hbehind f false _
          · cases f.switch? c on with
            | none => exact .inr ⟨rfl, .inl rfl⟩
            | some g => exact hbehind g on _

namespace Progress

variable [Dialect] (p : Progress)

theorem local_openNamed? : Local p.openNamed? :=
  local_groupName?.bind fun _ => .given _ fun _ => .pure _

omit [Dialect] in
theorem local_flagged? : Local p.flagged? := by
  intro s
  unfold flagged?
  rcases flags_read?_cases p.flags true [] s with
    ⟨g, given, c, rest, rfl | rfl, hs, hclosing, hrest⟩ | ⟨hs, hclosing | ⟨g, given, hclosing⟩⟩
  · rw [hs, hclosing]
    exact .both hrest
  · rw [hs, hclosing]
    cases given with
    | true => exact .both hrest
    | false => exact .neither
  · rw [hs, hclosing]
    exact .neither
  · rw [hs, hclosing]
    cases given with
    | true => exact .beyond List.suffix_rfl
    | false => exact .neither

theorem local_openLettered? : Local p.openLettered? :=
  .behind (by decide : '<' ≠ ')') p.local_openNamed?

theorem local_special? : Local p.special? := by
  have hlettered : Local fun s =>
      if s.head? = some 'P' then p.openLettered? s.tail else p.flagged? s :=
    .iteNext .initial (by decide : 'P' ≠ ')') p.local_openLettered? p.local_flagged?
  refine .ifHead (by decide : '<' ≠ ')') p.local_openNamed? hlettered (fun _ => rfl)
    fun s hs => ?_
  unfold special?
  split
  · exact absurd rfl (hs _)
  · rfl
  · next hne =>
      rw [if_neg fun hhead => (List.head?_eq_some_iff.mp hhead).elim hne]

theorem local_parenthesis? : Local p.parenthesis? := by
  refine .ifNext p.flags (by decide : '?' ≠ ')') p.local_special? (.pure (p.openGroup p.flags))
    (fun s rest hs => ?_) fun s hs => ?_
  · simp only [parenthesis?, hs]
  · unfold parenthesis?
    split
    · next rest h => exact absurd h (hs rest)
    · rfl

theorem local_step? (c : Char) : Local (p.step? c) := by
  unfold step?
  split
  · exact p.local_parenthesis?
  · exact .givenWith p.closeGroup? fun _ => .pure _
  · exact .pure _
  · exact (Bracket.local_class? p.flags).map fun part =>
      p.add ⟨.set part.chars, part.depth⟩
  case h_5 | h_6 | h_7 => exact .givenWith _ fun _ => local_reluctant _
  · exact (local_bounds? p.flags).bind fun _ => .givenWith _ fun _ => local_reluctantAfter p.flags _
  · exact (Escape.local_read? p.flags).map p.addEscape
  · exact .givenWith p.flags.dot? fun _ => .pure _
  · exact .pure _
  · exact .pure _
  · exact .pure _

end Progress

end Expression

end RouteCoverage
