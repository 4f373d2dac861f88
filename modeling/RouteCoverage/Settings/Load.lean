import RouteCoverage.Files.Tree
import RouteCoverage.Settings

/-!
# Settings files of projects

Finds the settings file in the base directory of a project.  A file that cannot be read or is
not well formed counts as missing, apart from a warning.
-/

namespace RouteCoverage

/-- Why a settings file is ignored. -/
inductive SettingsFault where
  | unreadable (e : FileError)
  | malformed
deriving DecidableEq, Repr

def SettingsFault.message : SettingsFault → String
  | unreadable e => e.message
  | malformed => "not a valid settings file"

namespace SettingsFile

/-- The path of the settings file of a project. -/
def path (basedir : Path) : Path := basedir.join ⟨name⟩

/-- The settings file of a project, if there is one. -/
def find (tree : FileTree) (basedir : Path) : Option (Except SettingsFault SettingsFile) :=
  if tree.contains (path basedir) then
    some (match tree.readText (path basedir) with
      | .error e => .error (.unreadable e)
      | .ok text =>
        match ofText? text with
        | some file => .ok file
        | none => .error .malformed)
  else none

/-- Writes the template of a settings file, unless there is one: whether it was written, and the
tree after that. -/
def create (tree : FileTree) (basedir : Path) : Except FileError (Bool × FileTree) := do
  if tree.contains (path basedir) then return (false, tree)
  else return (true, ← tree.write (path basedir) template.toUTF8)

end SettingsFile

def Settings.load (tree : FileTree) (basedir : Path) : Settings :=
  match SettingsFile.find tree basedir with
  | some (.ok file) => (usual basedir).withFile file
  | _ => usual basedir

end RouteCoverage
