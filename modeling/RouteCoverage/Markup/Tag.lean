import RouteCoverage.Markup.Error

/-!
# Tags and their attributes

A tag is what stands between its angle brackets.  Its name ends at the first blank; after it
come attributes, a key and a quoted value each.  Attributes are read from the left, and a fault
matters only when it is reached: `Tag.attributes` gives the attributes before the first fault
and that fault, and looking for a key (`Tag.find?`) meets the fault only when no earlier
attribute has the key.
-/

namespace RouteCoverage.Markup

/-- The characters that separate the parts of a tag. -/
def isSeparator (c : Char) : Bool := c == ' ' || c == '\t' || c == '\n' || c == '\r'

/-- The number of bytes of text in the encoding of the document. -/
def byteLength : List Char → Nat
  | [] => 0
  | c :: s => c.utf8Size + byteLength s

/-- The content of a tag: what stands between `<` and `>`, or between `<` and `/>`. -/
structure Tag where
  content : List Char
deriving DecidableEq, Repr, Inhabited

/-- An attribute of a tag: where its key stands, the key, and the value as written. -/
structure Attribute where
  position : Nat
  key : List Char
  value : List Char
deriving DecidableEq, Repr, Inhabited

/-- The part of a name after its first colon; the whole name when there is none. -/
def localName (name : List Char) : List Char :=
  match name.dropWhile (· != ':') with
  | _ :: rest => rest
  | [] => name

namespace Tag

/-- The name of a tag, with its prefix. -/
def name (t : Tag) : List Char := t.content.takeWhile (!isSeparator ·)

/-- The name of a tag without its prefix. -/
def localName (t : Tag) : List Char := Markup.localName t.name

/-- The attribute at the front of `s`, which starts at byte `position` of a tag whose content
ends at byte `stop`; `seen` are the attributes before it.  The answer is `none` when only
blanks are left. -/
def attribute? (stop : Nat) (seen : List Attribute) (position : Nat) (s : List Char) :
    Except AttributeError (Option (Attribute × Nat × List Char)) := do
  let lead := s.takeWhile isSeparator
  let s := s.dropWhile isSeparator
  let position := position + byteLength lead
  match s with
  | [] => return none
  | first :: s =>
    let isKeyEnd (c : Char) : Bool := c == '=' || isSeparator c
    let key := first :: s.takeWhile (!isKeyEnd ·)
    let s := s.dropWhile (!isKeyEnd ·)
    let gap := s.takeWhile isSeparator
    let s := s.dropWhile isSeparator
    let equals := position + byteLength key + byteLength gap
    match s with
    | '=' :: s =>
      if let some previous := seen.find? (·.key = key) then
        throw (.duplicated position previous.position)
      let blanks := s.takeWhile isSeparator
      let s := s.dropWhile isSeparator
      let value := equals + 1 + byteLength blanks
      match s with
      | [] => throw (.missingValue stop)
      | quote :: s =>
        if quote == '"' || quote == '\'' then
          let text := s.takeWhile (· != quote)
          match s.dropWhile (· != quote) with
          | [] => throw (.missingQuote stop quote)
          | _ :: s => return some (⟨position, key, text⟩, value + byteLength text + 2, s)
        else throw (.unquotedValue value)
    | [] => throw (.missingEquals stop)
    | _ :: _ => throw (.missingEquals equals)

theorem length_dropWhile_le (p : Char → Bool) (s : List Char) :
    (s.dropWhile p).length ≤ s.length := (List.dropWhile_suffix p).length_le

theorem length_of_cons_dropWhile {p : Char → Bool} {s : List Char} {c : Char} {r : List Char}
    (h : s.dropWhile p = c :: r) : r.length < s.length := by
  have := length_dropWhile_le p s
  rw [h] at this
  simp at this
  omega

/-- Reading an attribute leaves less text. -/
theorem length_of_attribute? {stop position next : Nat} {seen : List Attribute}
    {s rest : List Char} {a : Attribute}
    (h : attribute? stop seen position s = .ok (some (a, next, rest))) :
    rest.length < s.length := by
  simp only [attribute?, bind, Except.bind, pure, Except.pure, throw, throwThe,
    MonadExceptOf.throw] at h
  split at h
  · simp at h
  · rename_i first s₁ h₁
    have l₁ := length_of_cons_dropWhile h₁
    split at h
    · rename_i s₂ h₂
      have l₂ := length_of_cons_dropWhile h₂
      have l₃ := length_dropWhile_le (fun c => !(c == '=' || isSeparator c)) s₁
      split at h
      · simp at h
      · split at h
        · simp at h
        · rename_i quote s₃ h₃
          have l₄ := length_of_cons_dropWhile h₃
          split at h
          · split at h
            · simp at h
            · rename_i s₄ h₄
              have l₅ := length_of_cons_dropWhile h₄
              simp only [Except.ok.injEq, Option.some.injEq, Prod.mk.injEq] at h
              obtain ⟨_, _, rfl⟩ := h
              omega
          · simp at h
    · simp at h
    · simp at h

/-- The attributes that can be read from `s` on, and the fault that ends them, if any. -/
def attributesFrom (stop : Nat) (seen : List Attribute) (position : Nat) (s : List Char) :
    List Attribute × Option AttributeError :=
  match h : attribute? stop seen position s with
  | .error e => ([], some e)
  | .ok none => ([], none)
  | .ok (some (a, next, rest)) =>
      have := length_of_attribute? h
      let (others, fault) := attributesFrom stop (seen ++ [a]) next rest
      (a :: others, fault)
termination_by s.length

/-- The attributes of a tag up to the first fault, and that fault, if any. -/
def attributes (t : Tag) : List Attribute × Option AttributeError :=
  attributesFrom (byteLength t.content) [] (byteLength t.name)
    (t.content.dropWhile (!isSeparator ·))

/-- The value of the first attribute whose key is `key`, as written. -/
def find? (t : Tag) (key : List Char) : Except AttributeError (Option (List Char)) :=
  match t.attributes.1.find? (·.key = key), t.attributes.2 with
  | some a, _ => .ok (some a.value)
  | none, some e => .error e
  | none, none => .ok none

end Tag

end RouteCoverage.Markup
