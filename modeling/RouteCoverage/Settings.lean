import RouteCoverage.Settings.File
import RouteCoverage.CommandLine.Options
import RouteCoverage.Filter

/-!
# Settings of a run

The settings in force: those of the settings file, overlaid by the command line.  The command
line only switches things on or replaces values; it never takes back what the file says.
-/

namespace RouteCoverage

/-- The settings of a run. -/
structure Settings where
  layout : Layout
  failOnError : Bool
  includeTest : Bool
  includes : Option String
  excludes : Option String
  dumpDir : Path
  eventLog : Option Path
  verbose : Bool
deriving DecidableEq, Repr, Inhabited

namespace Settings

/-- The settings that a settings file gives a project. -/
def ofFile (basedir : Path) (file : SettingsFile) : Settings :=
  { layout := .ofRoots basedir file.roots
    failOnError := file.failOnError
    includeTest := file.includeTest
    includes := file.includes
    excludes := file.excludes
    dumpDir := ⟨file.dumpDir⟩
    eventLog := file.eventLog.map Path.mk
    verbose := false }

/-- The settings of a project without a settings file. -/
def usual (basedir : Path) : Settings := ofFile basedir .usual

/-- Replaces all settings by those of a settings file; only the base directory and the wish for
more messages stay. -/
def withFile (s : Settings) (file : SettingsFile) : Settings :=
  { ofFile s.layout.basedir file with verbose := s.verbose }

/-- Lays the command line over the settings. -/
def withOptions (s : Settings) (o : CommandLine.Options) : Settings :=
  { s with
    failOnError := s.failOnError || o.failOnError
    includeTest := s.includeTest || o.includeTest
    verbose := s.verbose || o.verbose
    includes := o.includes.or s.includes
    excludes := o.excludes.or s.excludes
    dumpDir := o.dumpDir.getD s.dumpDir
    eventLog := o.events.or s.eventLog }

/-- The directory of dumps, as seen from the base directory. -/
def resolvedDumpDir (s : Settings) : Path := s.layout.resolve s.dumpDir

/-- The event log, as seen from the base directory. -/
def resolvedEventLog (s : Settings) : Option Path := s.eventLog.map s.layout.resolve

def filterSpec [Dialect] (s : Settings) : FilterSpec := .ofLists s.includes s.excludes

def fileFilter [Dialect] (s : Settings) : FileFilter :=
  ⟨s.layout.basedir, s.layout.declaredRoots, s.filterSpec⟩

end Settings

end RouteCoverage
