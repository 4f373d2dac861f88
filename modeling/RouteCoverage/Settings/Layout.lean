import RouteCoverage.Files.Path

/-!
# Project layouts

Where a project keeps its sources and resources, and those of its tests: the directories as a
settings file names them, and the same directories seen from the base directory of a project.
-/

namespace RouteCoverage

/-- The root directories as a settings file names them. -/
structure Roots where
  source : List String
  resource : List String
  testSource : List String
  testResource : List String
deriving DecidableEq, Repr, Inhabited

/-- The root directories of a project that names none. -/
def Roots.usual : Roots :=
  { source := ["src/main/java"]
    resource := ["src/main/resources"]
    testSource := ["src/test/java"]
    testResource := ["src/test/resources"] }

/-- The base directory of a project and its root directories. -/
structure Layout where
  basedir : Path
  source : List Path
  resource : List Path
  testSource : List Path
  testResource : List Path
deriving DecidableEq, Repr, Inhabited

namespace Layout

/-- The layout of a project with the given roots. -/
def ofRoots (basedir : Path) (roots : Roots) : Layout :=
  let resolved (names : List String) : List Path := names.map fun name => basedir.join ⟨name⟩
  { basedir
    source := resolved roots.source
    resource := resolved roots.resource
    testSource := resolved roots.testSource
    testResource := resolved roots.testResource }

/-- A path as seen from the base directory. -/
def resolve (l : Layout) (path : Path) : Path := l.basedir.join path

/-- Every root, in the order in which filters try them. -/
def declaredRoots (l : Layout) : List Path :=
  l.source ++ l.testSource ++ l.resource ++ l.testResource

end Layout

end RouteCoverage
