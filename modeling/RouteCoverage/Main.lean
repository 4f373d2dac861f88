import RouteCoverage.Command
import RouteCoverage.Pattern.Usual
import RouteCoverage.Source.File

/-!
# The program

Runs the command on the files of the machine.  The places that the command looks at are read
into a file tree beforehand, and what it has added to a file is written afterwards; everything
between is `Command.run`.
-/

namespace RouteCoverage.Machine

/-- Reads what a path leads to.  Below a directory only files whose names have one of the
extensions are read; the others count as empty, and links are left out. -/
partial def nodeAt (extensions : List String) (place : String) : IO FileNode := do
  let resolved ← IO.FS.realPath place
  unless ← resolved.isDir do return .file (← IO.FS.readBinFile resolved)
  let mut entries := []
  for entry in ← resolved.readDir do
    let kind := (← entry.path.symlinkMetadata).type
    if kind == .dir then
      entries := (entry.fileName, ← nodeAt extensions entry.path.toString) :: entries
    else if kind == .file then
      let content ←
        if extensions.any (hasExtension · entry.fileName) then IO.FS.readBinFile entry.path
        else pure ByteArray.empty
      entries := (entry.fileName, .file content) :: entries
  return .directory entries

/-- A tree with what a path leads to; the same tree if that cannot be read. -/
def load (extensions : List String) (tree : FileTree) (path : Path) : IO FileTree := do
  try
    let node ← nodeAt extensions path.text
    return (tree.graft path node).toOption.getD tree
  catch _ => return tree

/-- A tree with a directory, if there is one, but without what is in it. -/
def loadDirectory (tree : FileTree) (path : Path) : IO FileTree := do
  try
    if ← (← IO.FS.realPath path.text).isDir then
      return (tree.makeDirectories path).toOption.getD tree
    else return tree
  catch _ => return tree

/-- The working directory in a tree without files. -/
def emptyTree : IO FileTree := do
  let here : Path := ⟨(← IO.currentDir).toString⟩
  let names := here.segments.filter (!Path.isTrivial ·)
  let tree : FileTree := ⟨.emptyDirectory, names⟩
  return (tree.makeDirectories here).toOption.getD tree

/-- The seconds since 1970, read off a file made for that. -/
def now : IO Nat := do
  let (_, path) ← IO.FS.createTempFile
  let made := (← path.metadata).modified
  IO.FS.removeFile path
  return made.sec.toNat

/-- Writes what a file of a tree has got behind the content it had. -/
def save (before after : FileTree) (path : Path) : IO Unit := do
  let old := (before.content path).size
  let content := after.content path
  if old < content.size then
    if let some parent := path.parent? then
      if parent.text != "" then IO.FS.createDirAll parent.text
    IO.FS.withFile path.text .append fun h => h.write (content.extract old content.size)

/-- Carries out the arguments on the files of the machine. -/
def run (arguments : List String) : IO UInt32 := do
  let mut tree ← emptyTree
  if let some (basedir, file) := Command.settingsPlaces arguments then
    tree ← load [] (← loadDirectory tree basedir) file
  for place in Command.runPlaces arguments tree do
    tree ← load ["java", "xml"] tree place
  let changed := Command.changedPlace arguments tree
  if let some place := changed then tree ← load [] tree place
  let mut result := Command.run (← now) arguments tree
  if let some place := changed then
    try save tree result.tree place
    catch e => result := Command.unsaved arguments (toString e) result
  IO.print result.out
  IO.eprint result.err
  return result.exit.toUInt32

end RouteCoverage.Machine

/-- Runs the command; its result is the exit code of the program. -/
def main (arguments : List String) : IO UInt32 := RouteCoverage.Machine.run arguments
