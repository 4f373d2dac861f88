import RouteCoverage.Pattern
import RouteCoverage.Files.Path
import RouteCoverage.Text.Blank

/-!
# File filters

Which files take part in a run, by lists of patterns to include and to exclude.  Every pattern
is tried on three forms of a path: relative to the base directory, the same without the source
root it lies under, and the bare file name.  Excludes win over includes.
-/

namespace RouteCoverage

/-- The patterns to include and to exclude; an absent list was never given. -/
structure FilterSpec where
  includes : Option (List Pattern)
  excludes : Option (List Pattern)
deriving Inhabited

namespace FilterSpec

/-- The entries of a comma-separated list, without blanks around them and without empty ones. -/
def entries (list : String) : List String :=
  (((splitAt ',' list.toList).map trimBlank).filter (· ≠ [])).map String.ofList

/-- The patterns of a comma-separated list. -/
def patterns [Dialect] (list : String) : List Pattern := (entries list).map Pattern.ofText

/-- The specification that two lists give. -/
def ofLists [Dialect] (includes excludes : Option String) : FilterSpec :=
  ⟨includes.map patterns, excludes.map patterns⟩

/-- Without any list every file is accepted. -/
def isUnrestricted (spec : FilterSpec) : Bool := spec.includes.isNone && spec.excludes.isNone

def anyMatch (patterns : List Pattern) (names : List String) : Bool :=
  patterns.any fun p => names.any p.isMatch

/-- Whether a file known under several names is accepted. -/
def accepts (spec : FilterSpec) (names : List String) : Bool :=
  !(spec.excludes.any (anyMatch · names)) && spec.includes.all (anyMatch · names)

end FilterSpec

/-- A specification for the files of one project. -/
structure FileFilter where
  basedir : Path
  roots : List Path
  spec : FilterSpec
deriving Inhabited

namespace FileFilter

/-- The path below the first of the given roots that it lies under, or the path itself.  A root
that is the base directory itself does not count. -/
def stripRoot (basedir : Path) (roots : List Path) (relative : Path) : Path :=
  (roots.findSome? fun root =>
    let root := root.relativeTo basedir
    if root.text.isEmpty then none else relative.stripPrefix? root).getD relative

/-- The three names that a file is known under. -/
def candidates (f : FileFilter) (path : Path) : List String :=
  let relative := path.relativeTo f.basedir
  [relative.normalized, (stripRoot f.basedir f.roots relative).normalized,
    path.fileName?.getD ""]

def accepts (f : FileFilter) (path : Path) : Bool :=
  f.spec.isUnrestricted || f.spec.accepts (f.candidates path)

/-- The accepted files, in order. -/
def filter (f : FileFilter) (paths : List Path) : List Path := paths.filter f.accepts

end FileFilter

end RouteCoverage
