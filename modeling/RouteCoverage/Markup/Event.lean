import RouteCoverage.Markup.Tag

/-!
# The events of a markup document

A document is read from the left into events: a start tag, a tag that is both start and end,
an end tag, or something without meaning here (text, comment, character data, declaration,
instruction).  An end tag has to name the innermost open element; elements may stay open at
the end of the text.  `events` gives the events before the first fault and that fault.
-/

namespace RouteCoverage.Markup

/-- An event of a document. -/
inductive Event where
  | start (tag : Tag)
  | empty (tag : Tag)
  | close (name : List Char)
  | skipped
deriving DecidableEq, Repr, Inhabited

/-- The text before the first `>` at which the text so far, last character first, satisfies
`stop`, and the text after that `>`. -/
def splitWhere (stop : List Char → Bool) (soFar : List Char) :
    List Char → Option (List Char × List Char)
  | [] => none
  | c :: rest =>
      if c == '>' && stop soFar then some (soFar.reverse, rest)
      else splitWhere stop (c :: soFar) rest

/-- The text before the first `>` outside quotes, and the text after it; `quote` is the quote
that is open at the front. -/
def splitTag (quote : Option Char) : List Char → Option (List Char × List Char)
  | [] => none
  | c :: rest =>
      match quote with
      | some q => (splitTag (if c = q then none else some q) rest).map fun (t, r) => (c :: t, r)
      | none =>
          if c = '>' then some ([], rest)
          else
            (splitTag (if c = '"' ∨ c = '\'' then some c else none) rest).map
              fun (t, r) => (c :: t, r)

theorem length_of_splitWhere {stop : List Char → Bool} {soFar s t rest : List Char}
    (h : splitWhere stop soFar s = some (t, rest)) : rest.length < s.length := by
  induction s generalizing soFar with
  | nil => simp [splitWhere] at h
  | cons c s ih =>
    simp only [splitWhere] at h
    split at h
    · simp at h
      simp [h.2]
    · have := ih h
      simp
      omega

theorem length_of_splitTag {quote : Option Char} {s t rest : List Char}
    (h : splitTag quote s = some (t, rest)) : rest.length < s.length := by
  induction s generalizing quote t with
  | nil => simp [splitTag] at h
  | cons c s ih =>
    simp only [splitTag] at h
    split at h
    · obtain ⟨⟨t', r'⟩, h', e⟩ := Option.map_eq_some_iff.1 h
      simp only [Prod.mk.injEq] at e
      obtain ⟨_, rfl⟩ := e
      have := ih h'
      simp
      omega
    · split at h
      · simp at h
        simp [h.2]
      · obtain ⟨⟨t', r'⟩, h', e⟩ := Option.map_eq_some_iff.1 h
        simp only [Prod.mk.injEq] at e
        obtain ⟨_, rfl⟩ := e
        have := ih h'
        simp
        omega

/-- Text with the separators at its end taken off; text of separators only is kept. -/
def withoutTrailingSeparators (s : List Char) : List Char :=
  match s.reverse.dropWhile isSeparator with
  | [] => s
  | kept => kept.reverse

/-- A tag that ends in `/` is a start and an end in one. -/
def startEvent (content : List Char) : Event :=
  match content.getLast? with
  | some '/' => .empty ⟨content.dropLast⟩
  | _ => .start ⟨content⟩

/-- Whether text begins with `word`, which is written in capitals, in letters of either case. -/
def beginsWith (word s : List Char) : Bool :=
  (s.take word.length).map Char.toUpper == word

/-- What `<!` begins, decided by the character after it. -/
def declaration (s : List Char) : Except Error (List Char) :=
  let upTo (stop : List Char → Bool) (fault : Unclosed) (valid : List Char → Bool) :=
    match splitWhere stop [] s with
    | none => .error (.unclosed fault)
    | some (body, rest) => if valid body then .ok rest else .error (.unclosed fault)
  match s with
  | _ :: '-' :: _ =>
      upTo (fun soFar => 4 < soFar.length && soFar.take 2 == ['-', '-']) .comment
        ("!--".toList.isPrefixOf ·)
  | _ :: '[' :: _ =>
      upTo (fun soFar => soFar.take 2 == [']', ']']) .characterData
        ("![CDATA[".toList.isPrefixOf ·)
  | _ :: c :: _ =>
      if c == 'D' || c == 'd' then do
        let rest ← upTo (fun soFar => soFar.count '<' == soFar.count '>') .doctype
          (beginsWith "!DOCTYPE".toList ·)
        -- a document type has a name: the declaration ends after something but blanks
        match (s.drop 8).dropWhile isSeparator with
        | '>' :: _ => .error (.illFormed .doctypeWithoutName)
        | _ => return rest
      else .error (.unclosed .unknown)
  | _ => .error (.unclosed .unknown)

/-- The event of an end tag, checked against the names of the open elements. -/
def endEvent (opened : List (List Char)) (content : List Char) :
    Except Error (Event × List (List Char)) :=
  let name := withoutTrailingSeparators content
  match opened with
  | [] => .error (.illFormed (.unmatchedEnd (String.ofList name)))
  | expected :: opened =>
      if name = expected then .ok (.close name, opened)
      else .error (.illFormed (.mismatchedEnd (String.ofList expected) (String.ofList name)))

/-- The event that begins right after a `<`, the names of the elements that are open after it,
and the rest of the text. -/
def markup (opened : List (List Char)) (s : List Char) :
    Except Error (Event × List (List Char) × List Char) :=
  match s with
  | '!' :: _ =>
      match declaration s with
      | .ok rest => .ok (.skipped, opened, rest)
      | .error e => .error e
  | '?' :: _ =>
      match splitWhere (fun soFar => soFar.head? == some '?') [] s with
      | some (body, rest) =>
          if 1 < body.length then .ok (.skipped, opened, rest)
          else .error (.unclosed .instruction)
      | none => .error (.unclosed .instruction)
  | '/' :: _ =>
      match splitTag none s with
      | none => .error (.unclosed .tag)
      | some (content, rest) =>
          match endEvent opened (content.drop 1) with
          | .ok (event, opened) => .ok (event, opened, rest)
          | .error e => .error e
  | _ =>
      match splitTag none s with
      | none => .error (.unclosed .tag)
      | some (content, rest) =>
          match startEvent content with
          | .start tag => .ok (.start tag, tag.name :: opened, rest)
          | event => .ok (event, opened, rest)

theorem length_of_declaration {s rest : List Char} (h : declaration s = .ok rest) :
    rest.length < s.length := by
  have upTo {stop : List Char → Bool} {fault : Unclosed} {valid : List Char → Bool}
      {r : List Char}
      (h : (match splitWhere stop [] s with
        | none => (.error (.unclosed fault) : Except Error (List Char))
        | some (body, rest) => if valid body then .ok rest else .error (.unclosed fault)) =
          .ok r) : r.length < s.length := by
    split at h
    · simp at h
    · rename_i h'
      split at h
      · simp at h
        subst h
        exact length_of_splitWhere h'
      · simp at h
  simp only [declaration] at h
  split at h
  · exact upTo h
  · exact upTo h
  · split at h
    · simp only [bind, Except.bind, pure, Except.pure] at h
      split at h
      · simp at h
      · rename_i h'
        split at h
        · simp at h
        · simp only [Except.ok.injEq] at h
          subst h
          exact upTo h'
    · simp at h
  · simp at h

/-- Reading an event leaves less text. -/
theorem length_of_markup {opened opened' : List (List Char)} {s rest : List Char} {e : Event}
    (h : markup opened s = .ok (e, opened', rest)) : rest.length < s.length := by
  simp only [markup] at h
  split at h
  · split at h
    · rename_i h'
      simp at h
      obtain ⟨_, _, rfl⟩ := h
      exact length_of_declaration h'
    · simp at h
  · split at h
    · rename_i h'
      split at h <;> simp at h
      obtain ⟨_, _, rfl⟩ := h
      exact length_of_splitWhere h'
    · simp at h
  · split at h
    · simp at h
    · rename_i h'
      split at h <;> simp at h
      obtain ⟨_, _, rfl⟩ := h
      exact length_of_splitTag h'
  · split at h
    · simp at h
    · rename_i h'
      split at h <;> simp at h <;> obtain ⟨_, _, rfl⟩ := h <;> exact length_of_splitTag h'

/-- The events of the text `s`, read while the elements named `opened` are open, up to the first
fault, and that fault, if any. -/
def eventsFrom (opened : List (List Char)) (s : List Char) : List Event × Option Error :=
  match h : s.dropWhile (· != '<') with
  | [] => ([], none)
  | _ :: inner =>
      match h' : markup opened inner with
      | .error e => ([], some e)
      | .ok (event, opened', rest) =>
          have : rest.length < s.length :=
            Nat.lt_trans (length_of_markup h') (Tag.length_of_cons_dropWhile h)
          let (events, fault) := eventsFrom opened' rest
          (event :: events, fault)
termination_by s.length

/-- The events of a document up to the first fault, and that fault, if any. -/
def events (document : List Char) : List Event × Option Error := eventsFrom [] document

end RouteCoverage.Markup
