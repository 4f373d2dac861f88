import Mathlib.Data.List.Induction
import RouteCoverage.Settings.Load

/-!
# Settings after many changes

Settings change by documents and by command lines, in any order; what cannot be read changes
nothing.  A document replaces everything but the base directory and the wish for more messages, and
a command line is laid over what it finds.  So after any number of changes only the last document
that could be read counts, with the command lines behind it (`run_eq_overlaid`), apart from that
wish, which no document takes back.
-/

namespace RouteCoverage.Settings

open CommandLine (Options)

/-! ### Changes -/

/-- A change of settings, as it is written. -/
inductive Change where
  /-- by the text of a settings file -/
  | document (text : String)
  /-- by the arguments of a command line -/
  | commandLine (arguments : List String)

namespace Change

/-- The settings file that a change brings, if it is one and can be read. -/
def file? : Change → Option SettingsFile
  | document text => SettingsFile.ofText? text
  | commandLine _ => none

/-- The options that a change brings, if it is a command line and can be read. -/
def options? : Change → Option Options
  | document _ => none
  | commandLine arguments => (Options.ofArguments arguments).toOption

end Change

def change (s : Settings) : Change → Settings
  | .document text =>
    match SettingsFile.ofText? text with
    | some file => s.withFile file
    | none => s
  | .commandLine arguments =>
    match Options.ofArguments arguments with
    | .ok options => s.withOptions options
    | .error _ => s

/-- The settings after some changes, one after the other. -/
def run (s : Settings) (history : List Change) : Settings := history.foldl change s

variable {s : Settings} {c : Change} {file : SettingsFile} {options : Options}

theorem change_of_file? (h : c.file? = some file) : s.change c = s.withFile file := by
  cases c with
  | document text =>
      have hread : SettingsFile.ofText? text = some file := h
      simp only [change, hread]
  | commandLine arguments => cases h

theorem change_of_options? (h : c.options? = some options) :
    s.change c = s.withOptions options := by
  cases c with
  | document text => cases h
  | commandLine arguments =>
      have hread : (Options.ofArguments arguments).toOption = some options := h
      cases hoptions : Options.ofArguments arguments with
      | error refusal =>
          rw [hoptions] at hread
          cases hread
      | ok given =>
          rw [hoptions] at hread
          cases hread
          simp only [change, hoptions]

/-- What cannot be read changes nothing. -/
theorem change_of_unread (hfile : c.file? = none) (hoptions : c.options? = none) :
    s.change c = s := by
  cases c with
  | document text =>
      have hread : SettingsFile.ofText? text = none := hfile
      simp only [change, hread]
  | commandLine arguments =>
      have hread : (Options.ofArguments arguments).toOption = none := hoptions
      cases hgiven : Options.ofArguments arguments with
      | error refusal => simp only [change, hgiven]
      | ok given =>
          rw [hgiven] at hread
          cases hread

theorem Change.options?_of_file? (h : c.file? = some file) : c.options? = none := by
  cases c with
  | document text => rfl
  | commandLine arguments => cases h

theorem run_append (s : Settings) (first second : List Change) :
    s.run (first ++ second) = (s.run first).run second := List.foldl_append

/-! ### Command lines over a settings file -/

/-- The last value given, of those that may be given. -/
def lastGiven {α : Type} (value : Options → Option α) (given : List Options) : Option α :=
  (given.filterMap value).getLast?

/-- The settings that a settings file gives a project when the options of `later`, one after the
other, are laid over it; more messages are written if one of `all` asks for them. -/
def overlaid (basedir : Path) (file : SettingsFile) (later all : List Options) : Settings :=
  { layout := .ofRoots basedir file.roots
    failOnError := file.failOnError || later.any (·.failOnError)
    includeTest := file.includeTest || later.any (·.includeTest)
    includes := (lastGiven (·.includes) later).or file.includes
    excludes := (lastGiven (·.excludes) later).or file.excludes
    dumpDir := (lastGiven (·.dumpDir) later).getD ⟨file.dumpDir⟩
    eventLog := (lastGiven (·.events) later).or (file.eventLog.map Path.mk)
    verbose := all.any (·.verbose) }

variable {basedir : Path} {later all : List Options}

theorem usual_eq_overlaid (basedir : Path) : usual basedir = overlaid basedir .usual [] [] := rfl

theorem lastGiven_append {α : Type} (value : Options → Option α) (given : List Options)
    (o : Options) : lastGiven value (given ++ [o]) = (value o).or (lastGiven value given) := by
  unfold lastGiven
  rw [List.filterMap_append]
  cases h : value o with
  | none => simp [h]
  | some a => simp [h]

/-- A settings file replaces the one before and all options since. -/
theorem withFile_overlaid (new : SettingsFile) :
    (overlaid basedir file later all).withFile new = overlaid basedir new [] all := by
  simp [withFile, ofFile, overlaid, Layout.ofRoots, lastGiven]

theorem withOptions_overlaid (o : Options) :
    (overlaid basedir file later all).withOptions o =
      overlaid basedir file (later ++ [o]) (all ++ [o]) := by
  simp [withOptions, overlaid, lastGiven_append, Option.getD_or, Option.or_assoc, Bool.or_assoc]

/-! ### Whole histories -/

/-- The settings file that counts after some changes, and the changes behind it: the last one that
could be read, or the usual one if there was none. -/
def Governs (history : List Change) (file : SettingsFile) (later : List Change) : Prop :=
  (∀ c ∈ later, c.file? = none) ∧
    (history = later ∧ file = .usual ∨
      ∃ before c, history = before ++ c :: later ∧ c.file? = some file)

theorem exists_governs (history : List Change) : ∃ file later, Governs history file later := by
  induction history with
  | nil => exact ⟨.usual, [], by simp, .inl ⟨rfl, rfl⟩⟩
  | cons c history ih =>
      obtain ⟨file, later, hlater, ⟨rfl, rfl⟩ | ⟨before, d, rfl, hd⟩⟩ := ih
      · cases hc : c.file? with
        | some new => exact ⟨new, history, hlater, .inr ⟨[], c, rfl, hc⟩⟩
        | none =>
            refine ⟨.usual, c :: history, ?_, .inl ⟨rfl, rfl⟩⟩
            intro d hd
            rcases List.mem_cons.mp hd with rfl | hd
            · exact hc
            · exact hlater d hd
      · exact ⟨file, later, hlater, .inr ⟨c :: before, d, rfl, hd⟩⟩

/-- Changes that bring no settings file lay their options over the settings. -/
theorem run_overlaid {history : List Change} (h : ∀ c ∈ history, c.file? = none) :
    (overlaid basedir file later all).run history =
      overlaid basedir file (later ++ history.filterMap Change.options?)
        (all ++ history.filterMap Change.options?) := by
  induction history generalizing later all with
  | nil => simp [run]
  | cons c history ih =>
      have hrest := fun d hd => h d (List.mem_cons_of_mem c hd)
      have hstep : (overlaid basedir file later all).run (c :: history) =
          ((overlaid basedir file later all).change c).run history := rfl
      rw [hstep]
      cases hoptions : c.options? with
      | none =>
          rw [change_of_unread (h c List.mem_cons_self) hoptions, ih hrest,
            List.filterMap_cons_none hoptions]
      | some o =>
          rw [change_of_options? hoptions, withOptions_overlaid, ih hrest,
            List.filterMap_cons_some hoptions, List.append_assoc, List.append_assoc]
          rfl

/-- Whatever the changes are, they leave options over a settings file, and no wish for more
messages is lost. -/
theorem exists_run_eq_overlaid (basedir : Path) (history : List Change) :
    ∃ file later, (usual basedir).run history =
      overlaid basedir file later (history.filterMap Change.options?) := by
  induction history using List.reverseRecOn with
  | nil => exact ⟨.usual, [], rfl⟩
  | append_singleton history c ih =>
      obtain ⟨file, later, ih⟩ := ih
      rw [run_append, ih, List.filterMap_append]
      have hstep : (overlaid basedir file later (history.filterMap Change.options?)).run [c] =
          (overlaid basedir file later (history.filterMap Change.options?)).change c := rfl
      rw [hstep]
      cases hfile : c.file? with
      | some new =>
          refine ⟨new, [], ?_⟩
          rw [change_of_file? hfile, withFile_overlaid, List.filterMap_cons_none
            (Change.options?_of_file? hfile), List.filterMap_nil, List.append_nil]
      | none =>
          cases hoptions : c.options? with
          | none =>
              refine ⟨file, later, ?_⟩
              rw [change_of_unread hfile hoptions, List.filterMap_cons_none hoptions,
                List.filterMap_nil, List.append_nil]
          | some o =>
              refine ⟨file, later ++ [o], ?_⟩
              rw [change_of_options? hoptions, withOptions_overlaid,
                List.filterMap_cons_some hoptions, List.filterMap_nil]

/-- The settings file that counts and the options behind it decide, apart from the wish for more
messages, which counts from the beginning. -/
theorem run_eq_overlaid {history later : List Change} (h : Governs history file later) :
    (usual basedir).run history =
      overlaid basedir file (later.filterMap Change.options?)
        (history.filterMap Change.options?) := by
  obtain ⟨hlater, ⟨rfl, rfl⟩ | ⟨before, c, rfl, hc⟩⟩ := h
  · rw [usual_eq_overlaid, run_overlaid hlater, List.nil_append]
  · obtain ⟨file', later', hbefore⟩ := exists_run_eq_overlaid basedir before
    have hreplaced : (overlaid basedir file' later' (before.filterMap Change.options?)).change c =
        overlaid basedir file [] (before.filterMap Change.options?) := by
      rw [change_of_file? hc, withFile_overlaid]
    have hstep : (overlaid basedir file' later' (before.filterMap Change.options?)).run
        (c :: later) = (overlaid basedir file [] (before.filterMap Change.options?)).run later := by
      rw [← hreplaced]
      rfl
    rw [run_append, hbefore, hstep, run_overlaid hlater, List.nil_append, List.filterMap_append,
      List.filterMap_cons_none (Change.options?_of_file? hc)]

/-! ### The settings file of a project -/

variable {tree : FileTree} {text : String}

theorem find_of_readText (h : tree.readText (SettingsFile.path basedir) = .ok text) :
    SettingsFile.find tree basedir = some (match SettingsFile.ofText? text with
      | some file => .ok file
      | none => .error .malformed) := by
  have hcontains : tree.contains (SettingsFile.path basedir) = true := by
    unfold FileTree.contains
    cases hfind : tree.find (SettingsFile.path basedir) with
    | error e =>
        rw [FileTree.readText, hfind] at h
        cases h
    | ok node => rfl
  rw [SettingsFile.find, if_pos hcontains]
  cases htext : SettingsFile.ofText? text with
  | none => simp only [h, htext]
  | some file => simp only [h, htext]

theorem load_of_unread (h : ∀ text, tree.readText (SettingsFile.path basedir) = .ok text →
    SettingsFile.ofText? text = none) : load tree basedir = usual basedir := by
  unfold load
  cases hread : tree.readText (SettingsFile.path basedir) with
  | ok text => rw [find_of_readText hread, h text hread]
  | error e =>
      unfold SettingsFile.find
      rw [hread]
      by_cases hcontains : tree.contains (SettingsFile.path basedir)
      · rw [if_pos hcontains]
      · rw [if_neg hcontains]

theorem load_of_readText (h : tree.readText (SettingsFile.path basedir) = .ok text)
    (hfile : SettingsFile.ofText? text = some file) :
    load tree basedir = (usual basedir).change (.document text) := by
  have hchange : (usual basedir).change (.document text) = (usual basedir).withFile file :=
    change_of_file? (c := .document text) hfile
  rw [load, find_of_readText h, hchange, hfile]

/-- The settings of a project after any changes by documents and command lines, readable or not.
The base directory stays.  One settings file counts, the last one that could be read or else the
usual one: its roots, and its other values with the options given behind it laid over them, where
the last value given wins and what is switched on stays on.  Only the wish for more messages counts
from the beginning.  What cannot be read changes nothing; and the settings that a project starts
with are the usual ones changed by its settings file, or the usual ones if that cannot be read. -/
theorem run_of_history (basedir : Path) (history : List Change) :
    ((usual basedir).run history).layout.basedir = basedir ∧
    (∃ file later, Governs history file later) ∧
    (∀ file later, Governs history file later →
      (usual basedir).run history =
        { layout := .ofRoots basedir file.roots
          failOnError := file.failOnError ||
            (later.filterMap Change.options?).any (·.failOnError)
          includeTest := file.includeTest ||
            (later.filterMap Change.options?).any (·.includeTest)
          includes := (((later.filterMap Change.options?).filterMap (·.includes)).getLast?).or
            file.includes
          excludes := (((later.filterMap Change.options?).filterMap (·.excludes)).getLast?).or
            file.excludes
          dumpDir := (((later.filterMap Change.options?).filterMap (·.dumpDir)).getLast?).getD
            ⟨file.dumpDir⟩
          eventLog := (((later.filterMap Change.options?).filterMap (·.events)).getLast?).or
            (file.eventLog.map Path.mk)
          verbose := (history.filterMap Change.options?).any (·.verbose) }) ∧
    (∀ s : Settings, ∀ c : Change, c.file? = none → c.options? = none → s.change c = s) ∧
    ∀ tree : FileTree,
      (∀ text file, tree.readText (SettingsFile.path basedir) = .ok text →
        SettingsFile.ofText? text = some file →
        load tree basedir = (usual basedir).run [.document text]) ∧
      ((∀ text, tree.readText (SettingsFile.path basedir) = .ok text →
        SettingsFile.ofText? text = none) → load tree basedir = usual basedir) := by
  refine ⟨?_, exists_governs history, fun file later h => run_eq_overlaid h,
    fun s c => change_of_unread, fun tree => ⟨fun text file h hfile => load_of_readText h hfile,
      load_of_unread⟩⟩
  obtain ⟨file, later, h⟩ := exists_run_eq_overlaid basedir history
  rw [h]
  rfl

end RouteCoverage.Settings
