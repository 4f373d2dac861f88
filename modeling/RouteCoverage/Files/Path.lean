import RouteCoverage.Text.Split

/-!
# Paths

A path is a text; what it means is its list of components.  Empty segments and segments `.`
count only where the text begins: with a slash for the root, or with `.` for the current
directory.  Operations that take a path apart keep the segments between as they are written.
-/

namespace RouteCoverage

/-- A path, as it is written. -/
structure Path where
  text : String
deriving DecidableEq, Repr, Inhabited

namespace Path

/-- A component of a path. -/
inductive Component where
  | root
  | current
  | parent
  | normal (name : String)
deriving DecidableEq, Repr, Inhabited

/-- The texts between the slashes of a path. -/
def segments (p : Path) : List String := (splitAt '/' p.text.toList).map String.ofList

/-- A segment that names no component unless the text begins with it. -/
def isTrivial (segment : String) : Bool := segment == "" || segment == "."

/-- What a path begins with, if not with a name: the root or the current directory. -/
def anchor (p : Path) : Option Component :=
  match p.segments with
  | "" :: _ :: _ => some .root
  | "." :: _ => some .current
  | _ => none

def body (p : Path) : List String := if p.anchor.isSome then p.segments.tail else p.segments

def Component.ofSegment (segment : String) : Component :=
  if segment = ".." then .parent else .normal segment

/-- The components of a path, in order. -/
def components (p : Path) : List Component :=
  p.anchor.toList ++ (p.body.filter (!isTrivial ·)).map Component.ofSegment

/-- Two paths mean the same when their components agree. -/
def sameAs (p q : Path) : Bool := p.components = q.components

def isAbsolute (p : Path) : Bool := p.anchor = some .root

/-- Segments with slashes between them. -/
def joinSegments (segments : List String) : String := "/".intercalate segments

/-- Segments without the trivial ones at the end. -/
def trimEnd (segments : List String) : List String :=
  (segments.reverse.dropWhile isTrivial).reverse

/-- What is left of segments once `n` components are taken from the front. -/
def dropComponents : Nat → List String → List String
  | 0, segments => segments
  | n + 1, segments => dropComponents n (segments.dropWhile isTrivial).tail

/-- A path without the trivial segments at its end. -/
def trimmed (p : Path) : Path :=
  let body := trimEnd p.body
  match p.anchor with
  | some .root => ⟨"/" ++ joinSegments body⟩
  | some _ => ⟨joinSegments ("." :: body)⟩
  | none => ⟨joinSegments body⟩

/-- The path that leads from `base` to `p`, if the components of `base` come first in `p`. -/
def stripPrefix? (p base : Path) : Option Path :=
  if base.components = [] then some p.trimmed
  else if base.components.isPrefixOf p.components then
    let rest := dropComponents (base.components.length - p.anchor.toList.length) p.body
    some ⟨joinSegments (trimEnd (rest.dropWhile isTrivial))⟩
  else none

/-- The path from `base` to `p`, or `p` itself if it lies elsewhere. -/
def relativeTo (p base : Path) : Path := (p.stripPrefix? base).getD p

/-- The path `q` as seen from `p`; an absolute one is kept. -/
def join (p q : Path) : Path :=
  if q.isAbsolute then q
  else if p.text.isEmpty || p.text.endsWith "/" then ⟨p.text ++ q.text⟩
  else ⟨p.text ++ "/" ++ q.text⟩

def fileName? (p : Path) : Option String :=
  match p.components.getLast? with
  | some (.normal name) => some name
  | _ => none

/-- The path of the directory that a path names something in; the root is in none. -/
def parent? (p : Path) : Option Path :=
  match p.components.getLast? with
  | none | some .root => none
  | some .current => some ⟨""⟩
  | some _ =>
    let body := trimEnd (trimEnd p.body).dropLast
    match p.anchor with
    | some .root => some ⟨"/" ++ joinSegments body⟩
    | some _ => some ⟨joinSegments ("." :: body)⟩
    | none => some ⟨joinSegments body⟩

/-- The text behind the last dot of a file name; a dot in front gives none. -/
def extension? (p : Path) : Option String := do
  let name ← p.fileName?
  match (splitAt '.' name.toList).reverse with
  | last :: before :: more =>
    if more = [] ∧ before = [] then none else some (String.ofList last)
  | _ => none

/-- The text of a path with slashes only. -/
def normalized (p : Path) : String := p.text.map fun c => if c = '\\' then '/' else c

end Path

end RouteCoverage
