/-
# Settings that are saved and loaded

Files are written, directories are made, and settings are saved and loaded, in any order and over
any paths.  No step touches a file but the one it writes (`FileStep.keeps_run`), so over a run a
file stays as it is until it is written again (`FileStep.at?_file_runAll`).  Loading gives the
settings that the text of a file is written for, or else the default ones with a warning
(`Settings.loads_load`), and so what was saved is loaded as long as its file is not written again
(`Settings.saved_and_loaded`).
-/

import InfixCalc.Proofs.FileGrowth
import InfixCalc.Proofs.SettingsText
import InfixCalc.Settings.File

namespace InfixCalc

open FileTree

/-- A step on the files of a tree. -/
inductive FileStep where
  | write (path : Path) (bytes : ByteArray)
  | makeDirectory (path : Path)
  | save (path : Path) (settings : Settings)
  | load (path : Path)

namespace FileStep

/-- The tree after a step.  What fails leaves it as it is, but for directories that are made on the
way to a file. -/
def run (tree : FileTree) : FileStep → FileTree
  | write path bytes => tree.create path bytes
  | makeDirectory path => tree.makeDirectory path
  | save path settings =>
    match settings.save tree path with
    | .ok saved => saved
    | .error _ => tree
  | load _ => tree

/-- Where a step writes a file, if it writes one. -/
def written? (tree : FileTree) : FileStep → Option (List FileName)
  | write path _ =>
    ((tree.makeDirectories (Path.origin path) (Path.components path).dropLast).1.placeFor
      path).toOption
  | save path _ => (tree.placeFor path).toOption
  | makeDirectory _ | load _ => none

/-- The tree after steps, one after the other. -/
def runAll (tree : FileTree) (steps : List FileStep) : FileTree := steps.foldl run tree

/-- No step writes a file at a location. -/
def NoneWrites (location : List FileName) : FileTree → List FileStep → Prop
  | _, [] => True
  | tree, step :: steps =>
    step.written? tree ≠ some location ∧ NoneWrites location (step.run tree) steps

variable {tree : FileTree} {location : List FileName} {bytes : ByteArray} {steps : List FileStep}

/-- A write that fails leaves the tree as it is. -/
theorem keeps_write_or (tree : FileTree) (path : Path) (bytes : ByteArray) :
    Keeps (tree.placeFor path).toOption tree
      (match tree.write path bytes with
        | .ok after => after
        | .error _ => tree) := by
  cases hwrite : tree.write path bytes with
  | ok after =>
    obtain ⟨place, hplace, hkeeps, -⟩ := keeps_write hwrite
    rw [hplace]
    exact hkeeps
  | error e =>
    cases hplace : tree.placeFor path with
    | error e => exact .refl tree
    | ok place =>
      rw [FileTree.write, hplace] at hwrite
      cases hwrite

/-- To create a file changes no other file. -/
theorem keeps_create (tree : FileTree) (path : Path) (bytes : ByteArray) :
    Keeps ((write path bytes).written? tree) tree (tree.create path bytes) := by
  rw [create, written?]
  split
  · rename_i e hfault
    rw [placeFor, hfault]
    exact .refl tree
  · exact (keeps_makeDirectories tree _ _).trans (keeps_write_or _ path bytes)

/-- To make a directory changes no file. -/
theorem keeps_makeDirectory (tree : FileTree) (path : Path) :
    Keeps none tree (tree.makeDirectory path) := by
  rw [FileTree.makeDirectory]
  split
  · exact .refl tree
  · exact keeps_makeDirectories tree _ _

/-- To save settings changes no other file, whether it succeeds or fails. -/
theorem keeps_save (tree : FileTree) (path : Path) (settings : Settings) :
    Keeps (tree.placeFor path).toOption tree ((save path settings).run tree) := by
  have hkeeps := keeps_write_or tree path settings.prettyJson.toUTF8
  rw [run, Settings.save]
  cases hwrite : tree.write path settings.prettyJson.toUTF8 <;> rwa [hwrite] at hkeeps

/-- **A step changes no file** but the one it writes. -/
theorem keeps_run (tree : FileTree) :
    ∀ step : FileStep, Keeps (step.written? tree) tree (step.run tree)
  | write path bytes => keeps_create tree path bytes
  | makeDirectory path => keeps_makeDirectory tree path
  | save path settings => keeps_save tree path settings
  | load _ => .refl tree

/-- Whatever is done, nothing is lost. -/
theorem grows_runAll (tree : FileTree) (steps : List FileStep) :
    Grows tree (runAll tree steps) := by
  induction steps generalizing tree with
  | nil => exact .refl tree
  | cons step steps ih => exact (keeps_run tree step).grows.trans (ih (step.run tree))

/-- **A file that no step writes** stays as it is. -/
theorem at?_file_runAll (hnone : NoneWrites location tree steps) :
    (runAll tree steps).at? location = some (file bytes) ↔
      tree.at? location = some (file bytes) := by
  induction steps generalizing tree with
  | nil => exact Iff.rfl
  | cons step steps ih =>
    exact (ih hnone.2).trans ((keeps_run tree step).at?_file_iff hnone.1)

end FileStep

namespace Settings

variable {tree saved : FileTree} {path : Path} {text : String} {settings : Settings}

/-- There is a text of these settings where a path leads, and they are valid. -/
def Found (tree : FileTree) (path : Path) (settings : Settings) : Prop :=
  ∃ text, tree.HoldsText path text ∧ ofJsonText text = .ok settings

/-- What comes of loading settings from a path: the settings that are found there, or else the
default ones with a warning. -/
inductive Loads (tree : FileTree) (path : Path) : Logged LoadEvent Settings → Prop
  | found {settings : Settings} (event : LoadEvent) (hfound : Found tree path settings)
      (hlevel : event.entry.level = .info) : Loads tree path ⟨settings, [event]⟩
  | default (event : LoadEvent) (hnone : ∀ settings, ¬ Found tree path settings)
      (hlevel : event.entry.level = .warn) : Loads tree path ⟨{}, [event]⟩

/-- **To load settings** gives those that are found, and the default ones if none are. -/
theorem loads_load (tree : FileTree) (path : Path) : Loads tree path (load tree path) := by
  rw [load]
  cases hread : tree.readText path with
  | error e =>
    have hnone : ∀ settings, ¬ Found tree path settings := by
      rintro settings ⟨text, htext, -⟩
      rw [← readText_eq_ok_iff, hread] at htext
      cases htext
    rw [ofFile]
    split
    · exact .default (.missing path) hnone rfl
    · exact .default (.unreadable path e) hnone rfl
  | ok text =>
    rw [ofFile]
    cases hjson : ofJsonText text with
    | ok settings => exact .found (.loaded path) ⟨text, readText_eq_ok_iff.1 hread, hjson⟩ rfl
    | error cause =>
      refine .default (.unusable path cause) ?_ rfl
      rintro settings ⟨text', htext, hsettings⟩
      rw [← readText_eq_ok_iff, hread] at htext
      cases htext
      rw [hjson] at hsettings
      cases hsettings

/-- Settings that are read from JSON are valid. -/
theorem validate_of_ofJsonText (h : ofJsonText text = .ok settings) :
    settings.validate = .ok () := by
  rw [ofJsonText] at h
  split at h
  · cases h
  · split at h
    · cases h
    · split at h <;> cases h
      assumption

/-- **Settings that are loaded are valid.** -/
theorem validate_load (tree : FileTree) (path : Path) :
    (load tree path).value.validate = .ok () := by
  have hloads := loads_load tree path
  generalize load tree path = logged at hloads ⊢
  cases hloads with
  | found _ hfound =>
    obtain ⟨text, -, hsettings⟩ := hfound
    exact validate_of_ofJsonText hsettings
  | default => rfl

/-- To save settings writes their text at the place that the path gives, and changes no other
file. -/
theorem keeps_of_save (h : settings.save tree path = .ok saved) :
    ∃ place, tree.placeFor path = .ok place ∧ Keeps (some place) tree saved ∧
      saved.at? place = some (file settings.prettyJson.toUTF8) := by
  rw [save] at h
  split at h <;> cases h
  rename_i hwrite
  exact keeps_write hwrite

/-- A path that gives no place for a file is one that settings cannot be saved to. -/
theorem save_eq_error {e : FileError} (h : tree.placeFor path = .error e) :
    settings.save tree path = .error (.file e.message) := by
  rw [save, write, h]
  rfl

/-- From the text that is saved, the settings are loaded if they are valid. -/
theorem load_of_holdsText (h : tree.HoldsText path settings.prettyJson) :
    (load tree path).value =
      match settings.validate with
      | .ok () => settings
      | .error _ => {} := by
  rw [load, readText_eq_ok_iff.2 h]
  simp only [ofFile, ofJsonText_prettyJson]
  cases settings.validate <;> rfl

/-- **Settings that are saved stay** in their file until it is written again. -/
theorem holdsText_runAll {place : List FileName} {later : List FileStep}
    (hplace : tree.placeFor path = .ok place) (hkeeps : Keeps (some place) tree saved)
    (hfile : saved.at? place = some (file text.toUTF8))
    (hnone : FileStep.NoneWrites place saved later) :
    (FileStep.runAll saved later).HoldsText path text := by
  have hfile := (FileStep.at?_file_runAll hnone).2 hfile
  have hgrows := hkeeps.grows.trans (FileStep.grows_runAll saved later)
  exact ⟨place, locate_of_placeFor hplace hgrows hfile, hfile⟩

/-- **Settings that are saved and loaded.**  Whatever has been done before in an empty working
directory, from every path the settings that are found are loaded, and else the default ones with a
warning; they are valid, and no file changes.  To save settings fails if the path leads to a
directory or the components before its last one lead nowhere, and then no file changes.  Else no
other file changes, and as long as that file is not written again the settings are loaded if they
are valid, and the default ones if they are not. -/
theorem saved_and_loaded (steps : List FileStep) :
    let tree := FileStep.runAll .empty steps
    (∀ path, Loads tree path (load tree path) ∧ (load tree path).value.validate = .ok () ∧
      (FileStep.load path).run tree = tree) ∧
    ∀ path (settings : Settings),
      (∀ e, settings.save tree path = .error e → (FileStep.save path settings).run tree = tree) ∧
      ((∃ entries, tree.lookup path = .ok (directory entries)) ∨
          (∃ e, tree.follow (Path.origin path) (Path.components path).dropLast = .error e) →
        ∃ cause, settings.save tree path = .error (.file cause)) ∧
      ∀ saved, settings.save tree path = .ok saved →
        (FileStep.save path settings).run tree = saved ∧
        ∃ place, saved.locate path = .ok place ∧
          (∀ other bytes, other ≠ place →
            (saved.at? other = some (file bytes) ↔ tree.at? other = some (file bytes))) ∧
          ∀ later, FileStep.NoneWrites place saved later →
            (load (FileStep.runAll saved later) path).value =
              match settings.validate with
              | .ok () => settings
              | .error _ => {} := by
  intro tree
  refine ⟨fun path => ⟨loads_load tree path, validate_load tree path, rfl⟩,
    fun path settings => ⟨fun e hsave => ?_, fun hfails => ?_, fun saved hsave => ?_⟩⟩
  · rw [FileStep.run, hsave]
  · obtain ⟨e, hplace⟩ := placeFor_error hfails
    exact ⟨_, save_eq_error hplace⟩
  · obtain ⟨place, hplace, hkeeps, hfile⟩ := keeps_of_save hsave
    refine ⟨by rw [FileStep.run, hsave], place, locate_of_placeFor hplace hkeeps.grows hfile,
      fun other bytes hne => hkeeps.at?_file_iff fun heq => hne (Option.some.inj heq).symm,
      fun later hnone => ?_⟩
    -- what the file holds after the save is what every later load reads
    exact load_of_holdsText (holdsText_runAll hplace hkeeps hfile hnone)

/-- Settings with the largest limit are loaded after others have been saved beside them.  Those have
no valid limit, and the default ones are loaded.  There is no directory to save the last ones in. -/
theorem saved_beside_invalid :
    let largest : Settings := ⟨some 18446744073709551615, true⟩
    let zero : Settings := ⟨some 0, true⟩
    let tree := FileStep.runAll .empty [.save "a.json" largest, .save "b.json" zero]
    (load tree "a.json").value = largest ∧ (load tree "b.json").value = {} ∧
      ∃ cause, largest.save tree "none/c.json" = .error (.file cause) := by
  intro largest zero tree
  refine ⟨?_, ?_, ?_⟩
  · obtain ⟨-, place, hplace, -, hload⟩ :=
      ((saved_and_loaded []).2 "a.json" largest).2.2
        (.directory [(Path.workingName, .directory [("a.json", .file largest.prettyJson.toUTF8)])])
        rfl
    obtain rfl : [Path.workingName, "a.json"] = place := Except.ok.inj hplace
    exact hload [.save "b.json" zero] ⟨by decide, trivial⟩
  · obtain ⟨-, place, -, -, hload⟩ :=
      ((saved_and_loaded [.save "a.json" largest]).2 "b.json" zero).2.2 tree rfl
    exact hload [] trivial
  · exact ((saved_and_loaded [.save "a.json" largest, .save "b.json" zero]).2 "none/c.json"
      largest).2.1 (.inr ⟨.notFound, rfl⟩)

end Settings
end InfixCalc
