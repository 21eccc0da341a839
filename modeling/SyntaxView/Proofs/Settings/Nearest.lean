import SyntaxView.Proofs.Ancestors
import SyntaxView.Proofs.Settings.Layers

/-!
# Which file settings are loaded from

Settings are loaded from the text of one file (`loadFrom_eq`), so two file systems in which the same text is found give
the same settings. What is left is which file that is:

- The settings of a workspace come from the nearest settings directory and from no other place
  (`load_reads_nearest_only`). Where no directory above has one, the search for the relative file finds nothing either,
  because the file would lie in a settings directory.
- A file given by an absolute path is the file at that path. A relative path may lead to a file of another directory: to
  the nearest one above, if there is no such file in the current directory (`loadFrom_reads_given_or_above`).
-/

namespace SyntaxView.Settings

open FileSystem (Place)
open FileSystem.Place (locationPath IsName)

/-! ## Settings of a text -/

/-- The text that can be read at a path. -/
def textAt (w : Place) (p : Path) : Option String := (w.read p).toOption

/-- The standard settings below the text of a file, if there is one, below the environment. -/
def ofText (env : Environment) : Option String → Except SettingsError Settings
  | none => ofData .layered (env.layer.laidOver standardLayer)
  | some text =>
    match (Toml.parse .first text).bind Wrapped.unwrapTop? with
    | some entries => ofData .layered (env.layer.laidOver ((Data.table entries).laidOver standardLayer))
    | none => .error .notToml

section Loading

variable {w w' : Place} {env : Environment} {p : Path}

theorem empty_laidOver_standard : (Data.table []).laidOver standardLayer = standardLayer := by
  obtain ⟨entries, hentries, -⟩ := standardLayer_cases
  rw [hentries, Data.laidOver_table, Data.overEntries]

/-- An empty file sets nothing. -/
theorem ofText_empty (env : Environment) : ofText env (some "") = ofText env none := by
  have hparse : (Toml.parse .first "").bind Wrapped.unwrapTop? = some [] := rfl
  simp only [ofText, hparse, empty_laidOver_standard]

theorem isFile_iff : w.isFile p = true ↔ ∃ text, w.found? p = some (.file text) := by
  unfold Place.isFile
  cases w.found? p with
  | none => simp
  | some e => cases e <;> simp

/-- What can be read but is no file has an empty text. -/
theorem textAt_of_not_file (h : w.isFile p = false) : textAt w p = none ∨ textAt w p = some "" := by
  unfold textAt Place.read
  unfold Place.isFile Place.found? at h
  cases hfind : w.find p with
  | error e => exact .inl rfl
  | ok r =>
    obtain ⟨l, e⟩ := r
    cases e with
    | file text => simp [hfind] at h
    | nullDevice => exact .inr rfl
    | directory | link target | fullDevice => exact .inl rfl

/-- What is found for a path is a file. -/
theorem isFile_of_findFile? {q : Path} (h : findFile? w p = some q) : w.isFile q = true := by
  unfold findFile? at h
  split at h
  · split at h
    · cases h
      assumption
    · cases h
  · exact List.find?_some h

/-- Settings are loaded from the text of the file that is found. -/
theorem loadFrom_eq (w : Place) (env : Environment) (p : Path) :
    loadFrom w env p = ofText env ((findFile? w p).bind (textAt w)) := by
  cases hfile : findFile? w p with
  | none =>
    simp only [loadFrom, fileLayer, hfile, empty_laidOver_standard, Option.bind_none, ofText]
  | some q =>
    obtain ⟨text, htext⟩ := isFile_iff.1 (isFile_of_findFile? hfile)
    have hread := Place.read_of_found htext
    have htext' : textAt w q = some text := by rw [textAt, hread]; rfl
    simp only [loadFrom, fileLayer, hfile, hread, Option.bind_some, htext', ofText]
    cases (Toml.parse .first text).bind Wrapped.unwrapTop? <;> rfl

/-- What is no file sets nothing, even if it can be read. -/
theorem ofText_of_not_file (h : w.isFile p = false) (env : Environment) :
    ofText env (textAt w p) = ofText env none := by
  rcases textAt_of_not_file h with htext | htext
  · rw [htext]
  · rw [htext, ofText_empty]

/-- An absolute path names the file that settings are loaded from. -/
theorem loadFrom_absolute (habsolute : p.isAbsolute = true) (env : Environment) :
    loadFrom w env p = ofText env (textAt w p) := by
  rw [loadFrom_eq, findFile?, if_pos habsolute]
  cases hfile : w.isFile p with
  | true => rfl
  | false => exact (ofText_of_not_file hfile env).symm

/-! ## The settings directory -/

/-- The settings directory in the directory at a location. -/
def settingsDirectoryIn (d : Location) : Path := (locationPath d).join ⟨directoryName⟩

/-- The settings file in the directory at a location. -/
def settingsFileIn (d : Location) : Path := (settingsDirectoryIn d).join ⟨fileName⟩

/-- The nearest of the current directory and those above it that has a settings directory. -/
def nearest? (w : Place) : Option Location :=
  w.here.inits.reverse.find? fun d => w.isDirectory (settingsDirectoryIn d)

theorem workspaceFile?_eq (hw : ∀ n ∈ w.here, IsName n) : workspaceFile? w = (nearest? w).map settingsFileIn := by
  have hdirectories : directoriesUp w = w.here.inits.reverse.map locationPath := Place.ancestors_locationPath hw
  rw [workspaceFile?, hdirectories, List.map_map, List.find?_map, Option.map_map]
  rfl

/-- Where no directory has a settings directory, none has the file in it. -/
theorem findFile?_relativeFile (hw : ∀ n ∈ w.here, IsName n) (h : nearest? w = none) :
    findFile? w relativeFile = none := by
  have hdirectories : directoriesUp w = w.here.inits.reverse.map locationPath := Place.ancestors_locationPath hw
  have hrelative : relativeFile = ⟨directoryName ++ "/" ++ fileName⟩ := by decide
  rw [findFile?, if_neg (by decide), hdirectories, List.map_map, List.find?_map, Option.map_eq_none_iff,
    List.find?_eq_none]
  intro d hd hfile
  obtain ⟨text, htext⟩ := isFile_iff.1 hfile
  have hjoin : (locationPath d).join relativeFile = ⟨(settingsDirectoryIn d).text ++ "/" ++ fileName⟩ := by
    rw [hrelative, Path.join_parts (by decide) (by decide)]
    rfl
  have hne : (settingsDirectoryIn d).text ≠ "" :=
    Path.ne_empty_of_isAbsolute (Path.isAbsolute_join (Place.isAbsolute_locationPath d) _)
  simp only [Function.comp_apply, hjoin] at htext
  exact List.find?_eq_none.1 h d hd (Place.isDirectory_of_found_below hne htext)

/-- The settings of a workspace are those of the file in the nearest settings directory. -/
theorem load_eq (hw : ∀ n ∈ w.here, IsName n) (env : Environment) :
    load w env = ofText env ((nearest? w).bind fun d => textAt w (settingsFileIn d)) := by
  rw [load, workspaceFile, workspaceFile?_eq hw]
  cases hnearest : nearest? w with
  | none =>
    rw [Option.map_none, Option.getD_none, loadFrom_eq, findFile?_relativeFile hw hnearest, Option.bind_none,
      Option.bind_none]
  | some d =>
    rw [Option.map_some, Option.getD_some, Option.bind_some, loadFrom_absolute]
    exact Path.isAbsolute_join (Path.isAbsolute_join (Place.isAbsolute_locationPath d) _) _

/-- Two file systems with the same nearest settings directory and the same text in its settings file, or none in both,
load the same settings, whatever else they hold. Without a text in that file, or without any settings directory, these
are the standard settings below the environment. -/
theorem load_reads_nearest_only (hw : ∀ n ∈ w.here, IsName n) (hw' : ∀ n ∈ w'.here, IsName n)
    (hnearest : nearest? w = nearest? w')
    (htext : ∀ d, nearest? w = some d → textAt w (settingsFileIn d) = textAt w' (settingsFileIn d))
    (env : Environment) :
    load w env = load w' env ∧
      (∀ d, nearest? w = some d → textAt w (settingsFileIn d) = none → load w env = ofText env none) ∧
      (nearest? w = none → load w env = ofText env none) := by
  rw [load_eq hw, load_eq hw', ← hnearest]
  cases hd : nearest? w with
  | none =>
    rw [Option.bind_none, Option.bind_none]
    exact ⟨rfl, nofun, fun _ => rfl⟩
  | some d =>
    rw [Option.bind_some, Option.bind_some, ← htext d hd]
    refine ⟨rfl, fun d' hd' hnone => ?_, nofun⟩
    cases hd'
    rw [hnone]

/-- A directory `a` with an empty settings directory, below settings in the root directory. -/
def coveredWorld (above : String) : Place where
  fs := (((FileSystem.bare.set [".clangview"] .directory).set [".clangview", "settings.toml"] (.file above)).set ["a"]
    .directory).set ["a", ".clangview"] .directory
  here := ["a"]

/-- Neither settings above nor a broken file there shines through. -/
theorem coveredWorld_loads :
    nearest? (coveredWorld "debug = true") = some ["a"] ∧
      load (coveredWorld "debug = true") [("CV_VERSION", "3")] = load (coveredWorld "[") [("CV_VERSION", "3")] ∧
      load (coveredWorld "debug = true") [("CV_VERSION", "3")] = ofText [("CV_VERSION", "3")] none := by
  have hnames : ∀ n ∈ ["a"], IsName n := by decide
  have hnearest : nearest? (coveredWorld "debug = true") = some ["a"] := by decide +kernel
  have hnearest' : nearest? (coveredWorld "[") = some ["a"] := by decide +kernel
  have htext : textAt (coveredWorld "debug = true") (settingsFileIn ["a"]) = none := by decide +kernel
  have htext' : textAt (coveredWorld "[") (settingsFileIn ["a"]) = none := by decide +kernel
  obtain ⟨hload, hnone, -⟩ := load_reads_nearest_only hnames hnames (hnearest.trans hnearest'.symm)
    (fun d hd => by cases hnearest.symm.trans hd; exact htext.trans htext'.symm) [("CV_VERSION", "3")]
  exact ⟨hnearest, hload, hnone _ hnearest htext⟩

/-! ## A file that is given -/

/-- A path seen from the current directory. -/
def seenFrom (w : Place) (p : Path) : Path := (locationPath w.here).join p

/-- The nearest of the current directory and those above it from which the path leads to a file. -/
def nearestFile? (w : Place) (p : Path) : Option Location :=
  w.here.inits.reverse.find? fun d => w.isFile ((locationPath d).join p)

/-- A relative path leads to a file of the nearest directory from which it leads to one. -/
theorem loadFrom_relative (hw : ∀ n ∈ w.here, IsName n) (hrelative : p.isAbsolute = false) (env : Environment) :
    loadFrom w env p = ofText env ((nearestFile? w p).bind fun d => textAt w ((locationPath d).join p)) := by
  have hdirectories : directoriesUp w = w.here.inits.reverse.map locationPath := Place.ancestors_locationPath hw
  have hfind : findFile? w p = (nearestFile? w p).map fun d => (locationPath d).join p := by
    rw [findFile?, if_neg (by simp [hrelative]), hdirectories, List.map_map, List.find?_map]
    rfl
  rw [loadFrom_eq, hfind, Option.bind_map, Function.comp_def]

/-- Unless a directory above the current one has to help out, settings are loaded from the text at the path that is
given. -/
theorem loadFrom_seenFrom (hw : ∀ n ∈ w.here, IsName n)
    (hgiven : p.isAbsolute = true ∨ ∀ d, nearestFile? w p = some d → d = w.here) (env : Environment) :
    loadFrom w env p = ofText env (textAt w (seenFrom w p)) := by
  cases habsolute : p.isAbsolute with
  | true => rw [loadFrom_absolute habsolute, seenFrom, Path.join_of_isAbsolute _ habsolute]
  | false =>
    rw [loadFrom_relative hw habsolute]
    have hhere : ∀ d, nearestFile? w p = some d → d = w.here := hgiven.resolve_left (by simp [habsolute])
    cases hnearest : nearestFile? w p with
    | none =>
      have hmem : w.here ∈ w.here.inits.reverse := by simp
      have hnone := List.find?_eq_none.1 hnearest w.here hmem
      exact (ofText_of_not_file (Bool.eq_false_iff.2 hnone) env).symm
    | some d =>
      rw [hhere d hnearest]
      rfl

/-- Two file systems with the same text at a path, or none in both, load the same settings from it, if the path is
absolute or leads to no file of a directory above the current one; without a text these are the standard settings below
the environment. Where a relative path does lead to a file of a directory above, the settings are those of that file. -/
theorem loadFrom_reads_given_or_above (hw : ∀ n ∈ w.here, IsName n) (hw' : ∀ n ∈ w'.here, IsName n)
    (hsame : textAt w (seenFrom w p) = textAt w' (seenFrom w' p)) (env : Environment) :
    ((p.isAbsolute = true ∨ ∀ v ∈ [w, w'], ∀ d, nearestFile? v p = some d → d = v.here) →
        loadFrom w env p = loadFrom w' env p ∧
          (textAt w (seenFrom w p) = none → loadFrom w env p = ofText env none)) ∧
      (p.isAbsolute = false → ∀ d, nearestFile? w p = some d →
        loadFrom w env p = ofText env (textAt w ((locationPath d).join p))) := by
  constructor
  · intro hgiven
    have hload := loadFrom_seenFrom hw (hgiven.imp_right fun h => h w (by simp)) env
    have hload' := loadFrom_seenFrom hw' (hgiven.imp_right fun h => h w' (by simp)) env
    rw [hload, hload', ← hsame]
    exact ⟨rfl, fun hnone => congrArg (ofText env) hnone⟩
  · intro hrelative d hd
    rw [loadFrom_relative hw hrelative, hd]
    rfl

/-- A directory `a` with the files given, and perhaps one in the root directory. -/
def fileWorld (inside above : Option String) : Place where
  fs := ⟨fun l =>
    if l = ["a"] then some .directory
    else if l = ["a", "s.toml"] then inside.map .file
    else if l = ["s.toml"] then above.map .file
    else FileSystem.bare.lookup l⟩
  here := ["a"]

/-- Where the file that is given exists, one of the same name above does not matter. -/
theorem fileWorld_loads_inside :
    loadFrom (fileWorld (some "version = 2") none) [] ⟨"s.toml"⟩ =
      loadFrom (fileWorld (some "version = 2") (some "debug = true")) [] ⟨"s.toml"⟩ := by
  have hnames : ∀ n ∈ ["a"], IsName n := by decide
  have hsame : textAt (fileWorld (some "version = 2") none) (seenFrom (fileWorld (some "version = 2") none) ⟨"s.toml"⟩) =
      textAt (fileWorld (some "version = 2") (some "debug = true"))
        (seenFrom (fileWorld (some "version = 2") (some "debug = true")) ⟨"s.toml"⟩) := by decide +kernel
  have hnearest : nearestFile? (fileWorld (some "version = 2") none) ⟨"s.toml"⟩ = some ["a"] := by decide +kernel
  have hnearest' : nearestFile? (fileWorld (some "version = 2") (some "debug = true")) ⟨"s.toml"⟩ = some ["a"] := by
    decide +kernel
  refine ((loadFrom_reads_given_or_above hnames hnames hsame []).1 (.inr ?_)).1
  intro v hv d hd
  simp only [List.mem_cons, List.not_mem_nil, or_false] at hv
  rcases hv with rfl | rfl
  · cases hnearest.symm.trans hd
    rfl
  · cases hnearest'.symm.trans hd
    rfl

/-- A relative path to nothing is not the same as no file: a file of the same name above is loaded. -/
theorem fileWorld_loads_above :
    textAt (fileWorld none none) ⟨"s.toml"⟩ = none ∧ textAt (fileWorld none (some "debug = true")) ⟨"s.toml"⟩ = none ∧
      loadFrom (fileWorld none none) [] ⟨"s.toml"⟩ = .ok standard ∧
      loadFrom (fileWorld none (some "debug = true")) [] ⟨"s.toml"⟩ = .ok { standard with debug := true } := by
  decide +kernel

end Loading

end SyntaxView.Settings
