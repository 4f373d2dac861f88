import RouteCoverage.Pattern
import RouteCoverage.Pattern.Usual
import RouteCoverage.Proofs.Pattern.Places
import RouteCoverage.Proofs.Pattern.Reading

/-!
# Expressions for whole names

The text of a pattern is put between `^(?:` and `)$`, so that it matches whole names only.  Reading
goes on inside of that group as it does for the text by itself (`Expression.Progress.Reads.within`),
since each item is read there as it is by itself (`Expression.Progress.step?_within`, and locality
for what stands behind it).  This holds as long as the text closes no group that it did not open,
and as long as no comment of it hides the parenthesis at the end; then the text writes what it
writes by itself, between the conditions for both ends of a name (`Expression.part?_anchored`).
-/

namespace RouteCoverage

open Reader

namespace Expression

namespace Progress

/-- The same state inside of one more group. -/
def within (p : Progress) (g : Group) : Progress := { p with groups := p.groups ++ [g] }

variable (p : Progress) (g : Group)

theorem flagged?_within (s : List Char) :
    (p.within g).flagged? s = (p.flagged? s).map fun x => (x.1.within g, x.2) := by
  unfold flagged?
  simp only [within]
  split
  · rfl
  · rfl
  · rfl

theorem closeGroup?_within (h : p.groups ≠ []) :
    (p.within g).closeGroup? = p.closeGroup?.map (·.within g) := by
  obtain ⟨inner, groups, hgroups⟩ := List.exists_cons_of_ne_nil h
  unfold closeGroup?
  simp [within, hgroups]

theorem repeatLast?_within (least : Nat) (most : Option Nat) :
    (p.within g).repeatLast? least most = (p.repeatLast? least most).map (·.within g) := by
  unfold repeatLast?
  rw [Option.map_map]
  rfl

variable [Dialect]

theorem openNamed?_within (s : List Char) :
    (p.within g).openNamed? s = (p.openNamed? s).map fun x => (x.1.within g, x.2) := by
  unfold openNamed?
  cases groupName? s with
  | none => rfl
  | some x =>
      obtain ⟨name, rest⟩ := x
      show (guard (name ∉ p.names) >>= _) = Option.map _ (guard (name ∉ p.names) >>= _)
      by_cases h : name ∈ p.names
      · rw [guard_bind_of_not (not_not_intro h), guard_bind_of_not (not_not_intro h)]
        rfl
      · rw [guard_bind_of h, guard_bind_of h]
        rfl

theorem openLettered?_within (s : List Char) :
    (p.within g).openLettered? s = (p.openLettered? s).map fun x => (x.1.within g, x.2) := by
  unfold openLettered?
  by_cases h : s.head? = some '<'
  · rw [guard_bind_of h, guard_bind_of h]
    exact p.openNamed?_within g s.tail
  · rw [guard_bind_of_not h, guard_bind_of_not h]
    rfl

theorem special?_within (s : List Char) :
    (p.within g).special? s = (p.special? s).map fun x => (x.1.within g, x.2) := by
  unfold special?
  split
  · exact p.openNamed?_within g _
  · exact p.openLettered?_within g _
  · exact p.flagged?_within g s

theorem parenthesis?_within (s : List Char) :
    (p.within g).parenthesis? s = (p.parenthesis? s).map fun x => (x.1.within g, x.2) := by
  unfold parenthesis?
  simp only [within]
  split
  · exact p.special?_within g _
  · rfl

theorem addEscape_within (escape : Escape) :
    (p.within g).addEscape escape = (p.addEscape escape).within g := by
  cases escape <;> rfl

/-- One more group around does not change how an item is read, unless it is the group's end. -/
theorem step?_within {c : Char} (h : c = ')' → p.groups ≠ []) (s : List Char) :
    (p.within g).step? c s = (p.step? c s).map fun x => (x.1.within g, x.2) := by
  unfold step?
  split
  · exact p.parenthesis?_within g s
  · rw [p.closeGroup?_within g (h rfl), Option.map_map, Option.map_map]
    rfl
  · rfl
  · rw [Option.map_map]
    rfl
  case h_5 | h_6 | h_7 =>
    rw [repeatLast?_within, Option.map_map, Option.map_map]
    rfl
  · show (bounds? p.flags s).bind _ = ((bounds? p.flags s).bind _).map _
    cases bounds? p.flags s with
    | none => rfl
    | some x =>
        simp only [Option.bind_some, repeatLast?_within, Option.map_map]
        rfl
  · rw [Option.map_map]
    refine congrArg (fun f => (Escape.read? p.flags s).map f) (funext fun x => ?_)
    exact congrArg (·, x.2) (p.addEscape_within g x.1)
  · rw [Option.map_map]
    rfl
  · rfl
  · rfl
  · rfl

variable {p q : Progress} {s t : List Char}

/-- What is read of a text by itself is read in front of the end of a group around it. -/
theorem Reads.within (h : Reads p s q t) :
    Reads (p.within g) (s ++ closing) (q.within g) (t ++ closing) := by
  induction h with
  | refl => exact .refl
  | @step p p' q c s rest s' t hnext hstep _ ih =>
      have hclose : c = ')' → p.groups ≠ [] := by
        rintro rfl hgroups
        rw [step?, closeGroup?, hgroups] at hstep
        cases hstep
      have hagrees := p.local_step? c rest
      rw [hstep] at hagrees
      have hstep' : p.step? c (rest ++ closing) = some (p', s' ++ closing) := by
        generalize p.step? c (rest ++ closing) = y at hagrees ⊢
        cases hagrees with
        | both _ => rfl
      refine .step (skip_append_of_skip p.flags hnext) ?_ ih
      rw [p.step?_within g hclose, hstep']
      rfl

theorem exists_readAll?_of_suffix (p : Progress) (h : s <:+ ['$']) :
    ∃ q, p.readAll? s = some q ∧ q.groups = p.groups := by
  rcases List.suffix_cons_iff.mp h with rfl | h
  · exact ⟨_, p.readAll?_dollar, rfl⟩
  · obtain rfl := List.eq_nil_of_suffix_nil h
    exact ⟨p, p.readAll?_nil, rfl⟩

end Progress

/-! ### Texts in a group -/

open Progress

theorem within_groups_ne_nil (p : Progress) (g : Group) : (p.within g).groups ≠ [] :=
  List.append_ne_nil_of_right_ne_nil _ (List.cons_ne_nil g [])

/-- The group that is opened in front of a text for whole names. -/
def wholeGroup : Group := ⟨⟨[], [some ⟨.look .textStart, 0⟩]⟩, .initial⟩

/-- A part between the conditions for both ends of a text. -/
def whole (part : Part) : Part :=
  ⟨.seqAll [.look .textStart, part.regex, .look .textEnd], part.depth + 2⟩

theorem toPart_whole (part : Part) :
    ((wholeGroup.around.add ⟨part.regex, 1 + part.depth⟩).add ⟨.look .textEnd, 0⟩).toPart =
      whole part := by
  have hdepth : 1 + max (max (max 0 0) (1 + part.depth)) 0 = part.depth + 2 := by omega
  show (⟨_, 1 + max (max (max 0 0) (1 + part.depth)) 0⟩ : Part) = _
  rw [hdepth]
  rfl

variable [Dialect]

/-- A text that is read by itself gets to a parenthesis that closes no group. -/
def HasStray (s : List Char) : Prop :=
  ∃ p t rest, Reads start s p t ∧ p.flags.skip t = ')' :: rest ∧ p.groups = []

/-- A text ends in a comment, so that the end of a group behind it is skipped. -/
def EndsInComment (s : List Char) : Prop :=
  ∃ p t, Reads start s p t ∧ p.flags.skip (t ++ closing) = []

/-- The part that a text writes stays in the limits inside of a group between two conditions. -/
def FitsInGroup (s : List Char) : Prop :=
  (∀ part ∈ part? s, part.depth + 2 ≤ depthLimit) ∧ Dialect.fits (Pattern.anchored s) = true

theorem part?_of_hasStray {s : List Char} (h : HasStray s) : part? s = none := by
  obtain ⟨p, t, rest, hreads, hnext, hgroups⟩ := h
  have hstep : p.step? ')' rest = none := by
    rw [step?, closeGroup?, hgroups]
    rfl
  rw [part?_eq, hreads.readAll?_eq, readAll?_of_skip_cons hnext, hstep]
  rfl

theorem reads_anchored (s : List Char) :
    Reads start (Pattern.anchored s) (start.within wholeGroup) (s ++ closing) := by
  have hanchored : Pattern.anchored s = '^' :: '(' :: '?' :: ':' :: (s ++ closing) := by
    rw [Pattern.anchored, List.append_assoc]
    rfl
  rw [hanchored]
  exact .step rfl rfl (.step rfl rfl .refl)

/-- Reading a text for whole names goes on where reading the text by itself has got to. -/
theorem readAll?_anchored {s t : List Char} {q : Progress} (h : Reads start s q t) :
    start.readAll? (Pattern.anchored s) = (q.within wholeGroup).readAll? (t ++ closing) :=
  ((reads_anchored s).trans (h.within wholeGroup)).readAll?_eq

theorem part?_of_groups_nil {s : List Char} {p : Progress} (h : start.readAll? s = some p)
    (hgroups : p.groups = []) : part? s = some p.level.toPart := by
  rw [part?_eq, h, Option.bind_some, if_pos hgroups]

theorem part?_of_groups_ne_nil {s : List Char} {p : Progress} (h : start.readAll? s = some p)
    (hgroups : p.groups ≠ []) : part? s = none := by
  rw [part?_eq, h, Option.bind_some, if_neg hgroups]

theorem part?_anchored_of_endsInComment {s : List Char} (h : EndsInComment s) :
    part? (Pattern.anchored s) = none := by
  obtain ⟨p, t, hreads, hskip⟩ := h
  have hread : start.readAll? (Pattern.anchored s) = some (p.within wholeGroup) := by
    rw [readAll?_anchored hreads]
    exact readAll?_of_skip_nil hskip
  exact part?_of_groups_ne_nil hread (within_groups_ne_nil p wholeGroup)

/-- Closing the group for whole names puts what was read between the two conditions. -/
theorem readAll?_closing {q : Progress} {t : List Char}
    (hskip : q.flags.skip (t ++ closing) = closing) :
    (q.within wholeGroup).readAll? (t ++ closing) =
      (q.within wholeGroup).closeGroup?.map fun p => p.addLook p.flags.dollar := by
  have hnext : (q.within wholeGroup).flags.skip (t ++ closing) = ')' :: ['$'] := hskip
  rw [readAll?_of_skip_cons hnext, step?]
  cases (q.within wholeGroup).closeGroup? with
  | none => rfl
  | some p => exact p.readAll?_dollar

/-- Where no group is open at the end of a text, the parenthesis behind it closes the one for whole
names. -/
theorem part?_anchored_of_groups_nil {s t : List Char} {q : Progress} (hreads : Reads start s q t)
    (hskip : q.flags.skip (t ++ closing) = closing) (hgroups : q.groups = []) :
    part? (Pattern.anchored s) = some (whole q.level.toPart) := by
  have hclose : (q.within wholeGroup).closeGroup? = some { q with
      flags := .initial
      level := wholeGroup.around.add ⟨q.level.toPart.regex, 1 + q.level.toPart.depth⟩
      groups := [] } := by
    unfold closeGroup? Progress.within
    rw [hgroups]
    rfl
  have hread := readAll?_anchored hreads
  rw [readAll?_closing hskip, hclose, Option.map_some] at hread
  rw [part?_of_groups_nil hread rfl, ← toPart_whole]
  rfl

/-- Where more groups are open at the end of a text, the parenthesis behind it closes one of
these, and the one for whole names stays open. -/
theorem part?_anchored_of_groups_ne_nil {s t : List Char} {q : Progress}
    (hreads : Reads start s q t) (hskip : q.flags.skip (t ++ closing) = closing)
    (hgroups : q.groups ≠ []) : part? (Pattern.anchored s) = none := by
  have hread : start.readAll? (Pattern.anchored s) =
      (q.closeGroup?.map (·.within wholeGroup)).map fun p => p.addLook p.flags.dollar := by
    rw [readAll?_anchored hreads, readAll?_closing hskip, q.closeGroup?_within wholeGroup hgroups]
  cases hclose : q.closeGroup? with
  | none => rw [part?_eq, hread, hclose]; rfl
  | some p =>
      rw [hclose] at hread
      exact part?_of_groups_ne_nil hread (within_groups_ne_nil p wholeGroup)

/-- An item that cannot be read leaves the group for whole names open even if it can be read with
the parenthesis behind it. -/
theorem part?_anchored_of_stuck {s t rest : List Char} {c : Char} {q : Progress}
    (hstray : ¬HasStray s) (hreads : Reads start s q t) (hnext : q.flags.skip t = c :: rest)
    (hstep : q.step? c rest = none) : part? (Pattern.anchored s) = none := by
  have hclose : c = ')' → q.groups ≠ [] := by
    rintro rfl hgroups
    exact hstray ⟨q, t, rest, hreads, hnext, hgroups⟩
  have hskip : (q.within wholeGroup).flags.skip (t ++ closing) = c :: (rest ++ closing) :=
    skip_append_of_skip q.flags hnext
  have hread := readAll?_anchored hreads
  rw [readAll?_of_skip_cons hskip, q.step?_within wholeGroup hclose] at hread
  have hagrees := q.local_step? c rest
  rw [hstep] at hagrees
  generalize q.step? c (rest ++ closing) = y at hagrees hread
  cases hagrees with
  | neither =>
      rw [part?_eq, hread]
      rfl
  | @beyond p rest' hsuffix =>
      obtain ⟨p', hp', hgroups⟩ := exists_readAll?_of_suffix (p.within wholeGroup) hsuffix
      rw [Option.map_some, Option.bind_some, hp'] at hread
      refine part?_of_groups_ne_nil hread ?_
      rw [hgroups]
      exact within_groups_ne_nil p wholeGroup

/-- A text that has no stray parenthesis and does not end in a comment writes, between `^(?:` and
`)$`, what it writes by itself, between the conditions for both ends of a text. -/
theorem part?_anchored {s : List Char} (hstray : ¬HasStray s) (hcomment : ¬EndsInComment s) :
    part? (Pattern.anchored s) = (part? s).map whole := by
  obtain ⟨q, t, hreads, hskip | ⟨c, rest, hnext, hstep⟩⟩ := exists_reads start s
  · have hread : start.readAll? s = some q := by
      rw [hreads.readAll?_eq, readAll?_of_skip_nil hskip]
    have hclosing : q.flags.skip (t ++ closing) = closing := by
      rcases skip_cases q.flags t with ⟨c, rest, hs, -, -⟩ | ⟨-, hclosing | hclosing⟩
      · rw [hs] at hskip
        cases hskip
      · exact absurd ⟨q, t, hreads, hclosing⟩ hcomment
      · exact hclosing
    by_cases hgroups : q.groups = []
    · rw [part?_anchored_of_groups_nil hreads hclosing hgroups, part?_of_groups_nil hread hgroups]
      rfl
    · rw [part?_anchored_of_groups_ne_nil hreads hclosing hgroups,
        part?_of_groups_ne_nil hread hgroups]
      rfl
  · have hnone : part? s = none := by
      rw [part?_eq, hreads.readAll?_eq, readAll?_of_skip_cons hnext, hstep]
      rfl
    rw [part?_anchored_of_stuck hstray hreads hnext hstep, hnone]
    rfl

/-- A text that has no stray parenthesis is an expression for whole names if it can be read by
itself, does not end in a comment and stays in the limits. -/
theorem regex?_anchored_eq_some_iff {s : List Char} {r : Regex} (hstray : ¬HasStray s) :
    regex? (Pattern.anchored s) = some r ↔ (¬EndsInComment s ∧ FitsInGroup s) ∧
      ∃ part, part? s = some part ∧
        r = .seqAll [.look .textStart, part.regex, .look .textEnd] := by
  by_cases hcomment : EndsInComment s
  · rw [regex?_eq_some_iff, part?_anchored_of_endsInComment hcomment]
    simp [hcomment]
  · rw [regex?_eq_some_iff, part?_anchored hstray hcomment]
    constructor
    · rintro ⟨_, hwhole, ⟨hdepth, hfits⟩, rfl⟩
      obtain ⟨part, hpart, rfl⟩ := Option.map_eq_some_iff.mp hwhole
      refine ⟨⟨hcomment, fun part' hpart' => ?_, hfits⟩, part, hpart, rfl⟩
      obtain rfl := Option.some.inj (hpart.symm.trans hpart')
      exact hdepth
    · rintro ⟨⟨-, hdepth, hfits⟩, part, hpart, rfl⟩
      exact ⟨whole part, Option.map_eq_some_iff.mpr ⟨part, hpart, rfl⟩,
        ⟨hdepth part hpart, hfits⟩, rfl⟩

end Expression

namespace Pattern

open Expression

section

variable [Dialect]

theorem isMatch_iff_expression {raw name : String} (hstar : '*' ∉ raw.toList) (hname : name ≠ raw) :
    (ofText raw).isMatch name = true ↔
      ∃ r, regex? (anchored raw.toList) = some r ∧ r.isFoundIn name.toList = true := by
  unfold isMatch ofText Wildcard.regex?
  rw [if_neg hstar, beq_eq_false_iff_ne.mpr hname, Option.any_none, Bool.false_or, Bool.false_or,
    Option.any_eq_true]

/-- A text without stars and stray parentheses matches another name if and only if it can be read
as an expression that matches the whole name, and neither its end in a comment nor the limits keep
it from being one for whole names. -/
theorem isMatch_iff_part {raw name : String} (hstar : '*' ∉ raw.toList) (hname : name ≠ raw)
    (hstray : ¬HasStray raw.toList) : (ofText raw).isMatch name = true ↔
      (∃ part, part? raw.toList = some part ∧
        part.regex.Matches name.toList 0 name.toList.length) ∧
        ¬EndsInComment raw.toList ∧ FitsInGroup raw.toList := by
  rw [isMatch_iff_expression hstar hname]
  constructor
  · rintro ⟨r, hr, hfound⟩
    obtain ⟨hplain, part, hpart, rfl⟩ := (regex?_anchored_eq_some_iff hstray).mp hr
    exact ⟨⟨part, hpart, (Regex.isFoundIn_whole [part.regex] name.toList).mp hfound⟩, hplain⟩
  · rintro ⟨⟨part, hpart, hmatch⟩, hplain⟩
    exact ⟨_, (regex?_anchored_eq_some_iff hstray).mpr ⟨hplain, part, hpart, rfl⟩,
      (Regex.isFoundIn_whole [part.regex] name.toList).mpr hmatch⟩

/-- In every dialect, a text without stars and stray parentheses matches another name if and only
if it can be read as an expression that matches the whole name, and neither its end in a comment nor
the limits keep it from being one for whole names.  If the dialect has room for the text itself, it
is then an expression by itself.  A text with a stray parenthesis is no expression. -/
theorem isMatch_iff_whole {raw name : String} (hstar : '*' ∉ raw.toList) (hname : name ≠ raw) :
    (¬HasStray raw.toList →
      ((ofText raw).isMatch name = true ↔
        (∃ part, part? raw.toList = some part ∧
          part.regex.Matches name.toList 0 name.toList.length) ∧
          ¬EndsInComment raw.toList ∧ FitsInGroup raw.toList) ∧
      (Dialect.fits raw.toList = true → ((ofText raw).isMatch name = true ↔
        (∃ r, regex? raw.toList = some r ∧ r.Matches name.toList 0 name.toList.length) ∧
          ¬EndsInComment raw.toList ∧ FitsInGroup raw.toList))) ∧
    (HasStray raw.toList → regex? raw.toList = none) := by
  refine ⟨fun hstray => ?_, fun hstray => ?_⟩
  · have hpart := isMatch_iff_part hstar hname hstray
    refine ⟨hpart, fun hsize => hpart.trans (and_congr_left fun hplain => ?_)⟩
    constructor
    · rintro ⟨part, hread, hmatch⟩
      have hlimit : part.depth ≤ depthLimit :=
        Nat.le_trans (Nat.le_add_right _ 2) (hplain.2.1 part hread)
      exact ⟨part.regex, regex?_eq_some_iff.mpr ⟨part, hread, ⟨hlimit, hsize⟩, rfl⟩, hmatch⟩
    · rintro ⟨r, hr, hmatch⟩
      obtain ⟨part, hread, -, rfl⟩ := regex?_eq_some_iff.mp hr
      exact ⟨part, hread, hmatch⟩
  · rw [regex?, part?_of_hasStray hstray]
    rfl

end

/-- The text `a|b+` has no stray parenthesis, and its matches are those of the expression. -/
theorem isMatch_iff_whole_alternatives :
    ('*' ∉ "a|b+".toList ∧ "bb" ≠ "a|b+") ∧ ¬HasStray "a|b+".toList ∧
      ∃ r, regex? "a|b+".toList = some r ∧
        r.Matches "bb".toList 0 "bb".toList.length := by
  have hstar : '*' ∉ "a|b+".toList := by decide
  have hname : "bb" ≠ "a|b+" := by decide
  have hsize : Dialect.fits "a|b+".toList = true := by decide +kernel
  have hstray : ¬HasStray "a|b+".toList := fun h =>
    absurd ((isMatch_iff_whole hstar hname).2 h) (by decide +kernel)
  have hmatch : (ofText "a|b+").isMatch "bb" = true := by decide +kernel
  exact ⟨⟨hstar, hname⟩, hstray,
    ((((isMatch_iff_whole hstar hname).1 hstray).2 hsize).mp hmatch).1⟩

/-- With a stray parenthesis a text is no expression, but may still match other names. -/
theorem isMatch_strayParenthesis :
    ('*' ∉ "a)|(b".toList ∧ "ax" ≠ "a)|(b") ∧ regex? "a)|(b".toList = none ∧
      (ofText "a)|(b").isMatch "ax" = true := by
  decide +kernel

end Pattern

end RouteCoverage
