import RouteCoverage.Files.Tree
import RouteCoverage.Settings.Layout

/-!
# Discovery

The files of a project that may hold routes: all files below its roots whose names end in the
right extension.  Within a root they come in the order of their paths, name by name; a file
below two roots is found under the first of them.
-/

namespace RouteCoverage

/-- Whether the name of a file ends in a dot and the extension. -/
def hasExtension (extension name : String) : Bool := name.endsWith ("." ++ extension)

mutual

/-- The paths of the files with an extension in a directory and below it, where the directory
has the path `dir`.  Names are taken in their order. -/
def filesBelow (extension : String) (dir : Path) : FileNode → List Path
  | .file _ => []
  | .directory entries =>
    ((filesOfEntries extension dir entries).mergeSort fun a b => a.1 ≤ b.1).flatMap (·.2)

/-- The files found under each entry of a directory. -/
def filesOfEntries (extension : String) (dir : Path) :
    List (String × FileNode) → List (String × List Path)
  | [] => []
  | (name, node) :: rest =>
    let path := dir.join ⟨name⟩
    let found := match node with
      | .file _ => if hasExtension extension name then [path] else []
      | .directory _ => filesBelow extension path node
    (name, found) :: filesOfEntries extension dir rest

end

/-- The files with an extension below a root, if it is a directory. -/
def filesOfRoot (extension : String) (tree : FileTree) (root : Path) : List Path :=
  match tree.find root with
  | .ok node => filesBelow extension root node
  | .error _ => []

/-- Paths without those that mean the same as an earlier one. -/
def withoutRepeats (paths : List Path) : List Path :=
  ((paths.map fun p => (p.components, p)).eraseDupsBy fun p q => p.1 == q.1).map (·.2)

/-- The files with an extension below several roots. -/
def findFiles (extension : String) (tree : FileTree) (roots : List Path) : List Path :=
  withoutRepeats (roots.flatMap (filesOfRoot extension tree))

/-- The files of a project that may hold routes. -/
structure Discovered where
  java : List Path
  xml : List Path
deriving DecidableEq, Repr, Inhabited

/-- Finds the files of a project; those of its tests only if they are wanted. -/
def discover (tree : FileTree) (layout : Layout) (includeTest : Bool) : Discovered :=
  let roots (usual tests : List Path) : List Path := if includeTest then usual ++ tests else usual
  { java := findFiles "java" tree (roots layout.source layout.testSource)
    xml := findFiles "xml" tree (roots layout.resource layout.testResource) }

end RouteCoverage
