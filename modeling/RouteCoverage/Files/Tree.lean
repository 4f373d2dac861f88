import RouteCoverage.Files.Error
import RouteCoverage.Files.Path

/-!
# File trees

Directories and files as a value.  A path is followed name by name from the root or from the
working directory; every name but the last has to lead to a directory, `..` leads back to the
directory around, and a path that ends in a slash names a directory.  Operations that change
the tree give the new tree or the reason why they fail.
-/

namespace RouteCoverage

/-- What a name stands for in a directory. -/
inductive FileNode where
  | file (content : ByteArray)
  | directory (entries : List (String × FileNode))
deriving Inhabited

/-- A tree of files, and the names that lead from its root to the working directory. -/
structure FileTree where
  root : FileNode
  here : List String
deriving Inhabited

namespace FileNode

/-- A directory without entries. -/
def emptyDirectory : FileNode := directory []

def entries? : FileNode → Option (List (String × FileNode))
  | file _ => none
  | directory entries => some entries

/-- What a list of names leads to. -/
def get? : List String → FileNode → Option FileNode
  | [], n => some n
  | name :: names, n => do get? names (← (← n.entries?).lookup name)

/-- The entries of a directory with one name changed, added or taken away. -/
def setEntry (name : String) (value : Option FileNode) (entries : List (String × FileNode)) :
    List (String × FileNode) :=
  match value with
  | none => entries.filter (·.1 ≠ name)
  | some value =>
    if (entries.lookup name).isSome then
      entries.map fun (k, v) => if k = name then (k, value) else (k, v)
    else entries ++ [(name, value)]

/-- Puts something where a list of names leads to, or takes away what is there.  Nothing changes
if the names do not lead through directories. -/
def set (value : Option FileNode) : List String → FileNode → FileNode
  | [], n => value.getD n
  | _ :: _, file content => file content
  | [name], directory entries => directory (setEntry name value entries)
  | name :: names, directory entries =>
    match entries.lookup name with
    | some inner => directory (setEntry name (some (set value names inner)) entries)
    | none => directory entries

end FileNode

namespace FileTree

/-- Where a path begins, and the segments to follow from there. -/
def start (t : FileTree) (p : Path) : List String × List String :=
  if p.isAbsolute then ([], p.segments) else (t.here, p.segments)

/-- Follows segments from a place that the names lead to. -/
def follow (root : FileNode) (place : List String) : List String → Except FileError (List String)
  | [] => .ok place
  | segment :: rest =>
    match root.get? place with
    | none => .error .notFound
    | some (.file _) => .error .notDirectory
    | some (.directory entries) =>
      if Path.isTrivial segment then follow root place rest
      else if segment = ".." then follow root place.dropLast rest
      else if (entries.lookup segment).isSome then follow root (place ++ [segment]) rest
      else .error .notFound

/-- The names that a path leads along, if it leads to anything. -/
def resolve (t : FileTree) (p : Path) : Except FileError (List String) :=
  if p.text.isEmpty then .error .notFound
  else
    let (place, segments) := t.start p
    follow t.root place segments

def find (t : FileTree) (p : Path) : Except FileError FileNode := do
  match t.root.get? (← t.resolve p) with
  | some n => return n
  | none => throw .notFound

/-- Whether a path leads to anything. -/
def contains (t : FileTree) (p : Path) : Bool := (t.find p).isOk

/-- The names in a directory with what they stand for, in order of the names; `none` if the path
does not lead to a directory. -/
def directory? (t : FileTree) (p : Path) : Option (List (String × FileNode)) :=
  match t.find p with
  | .ok (.directory entries) => some (entries.mergeSort fun a b => a.1 ≤ b.1)
  | _ => none

def readText (t : FileTree) (p : Path) : Except FileError String := do
  match ← t.find p with
  | .directory _ => throw .isDirectory
  | .file content =>
    match String.fromUTF8? content with
    | some text => return text
    | none => throw .notText

/-- The names that lead to where a file with the given path is or would be. -/
def target (t : FileTree) (p : Path) : Except FileError (List String) := do
  match t.resolve p with
  | .ok names => return names
  | .error e =>
    let (place, segments) := t.start p
    match segments.getLast? with
    | none | some "" | some "." | some ".." => throw e
    | some name =>
      let parent ← follow t.root place segments.dropLast
      match t.root.get? parent with
      | some (.directory _) => return parent ++ [name]
      | _ => throw .notDirectory

/-- Gives a file new content, computed from the old one; a missing file is made. -/
def modifyFile (t : FileTree) (p : Path) (change : ByteArray → ByteArray) :
    Except FileError FileTree := do
  let names ← t.target p
  match t.root.get? names with
  | some (.directory _) => throw .isDirectory
  | some (.file old) => return { t with root := t.root.set (some (.file (change old))) names }
  | none => return { t with root := t.root.set (some (.file (change .empty))) names }

def write (t : FileTree) (p : Path) (content : ByteArray) : Except FileError FileTree :=
  t.modifyFile p fun _ => content

/-- Writes text behind what a file holds. -/
def append (t : FileTree) (p : Path) (text : String) : Except FileError FileTree :=
  t.modifyFile p (· ++ text.toUTF8)

/-- Makes the directories that segments lead through from a place. -/
def makeAll (root : FileNode) (place : List String) : List String → Except FileError FileNode
  | [] => .ok root
  | segment :: rest =>
    if Path.isTrivial segment then makeAll root place rest
    else if segment = ".." then makeAll root place.dropLast rest
    else
      let names := place ++ [segment]
      match root.get? names with
      | some (.directory _) => makeAll root names rest
      | some (.file _) => .error (if rest.isEmpty then .alreadyExists else .notDirectory)
      | none => makeAll (root.set (some .emptyDirectory) names) names rest

def makeDirectories (t : FileTree) (p : Path) : Except FileError FileTree := do
  let (place, segments) := t.start p
  return { t with root := ← makeAll t.root place segments }

/-- Puts something where a path leads, and makes the directories on the way. -/
def graft (t : FileTree) (p : Path) (node : FileNode) : Except FileError FileTree := do
  let made ← t.makeDirectories p
  return { made with root := made.root.set (some node) (← made.resolve p) }

/-- What a file holds; nothing if the path does not lead to a file. -/
def content (t : FileTree) (p : Path) : ByteArray :=
  match t.find p with
  | .ok (.file content) => content
  | _ => .empty

/-- Takes away a file, or a directory with all that is in it. -/
def remove (t : FileTree) (p : Path) : Except FileError FileTree := do
  return { t with root := t.root.set none (← t.resolve p) }

end FileTree

end RouteCoverage
