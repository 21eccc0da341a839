import SyntaxView.Proofs.CurrentDirectory
import SyntaxView.Proofs.Settings.Check

/-!
# A workspace that was set up

`install` writes the template under a relative path, and `load` and `check` look for it under an absolute one. So the
workspace has the standard settings after it is set up, as the template says them (`ofLoadedText_template`), as long as
the absolute path is not too long for the system: then the file that was written is the file that is found
(`nearest?_of_found`). Where no settings directory is found at all, the standard settings are loaded anyway. A settings
directory with a path that is too long is overlooked, and the settings above it stay in force (`install_of_long`).

What is written is one file, at the place that the path leads to (`write_changes`).

Main result: `install_protects_and_governs`.
-/

namespace SyntaxView

open FileSystem

/-! ## What a write changes -/

namespace FileSystem.Place

variable {w : Place} {p : Path} {fs : FileSystem}

/-- A text is written to the spot that the path leads to, or to a device. -/
theorem write_spot {text : String} (h : w.write p text = .ok fs) :
    fs = w.fs ∨ ∃ l, hasNul p = false ∧ (w.target .write p).IsSpot l ∧ fs = w.fs.set l (.file text) := by
  unfold write at h
  split at h
  · cases h
  · rename_i l fs' hcreate
    obtain ⟨hnul, ⟨l', hl, rfl, hspot, -⟩ | ⟨hopened, -⟩ | ⟨hopened, -⟩⟩ := create_cases hcreate
    · cases hl
      cases h
      exact .inr ⟨l, hnul, hspot, set_set _ _ _ _⟩
    · cases hopened
    · cases hopened
  · rename_i fs' hcreate
    obtain ⟨-, ⟨l, hopened, -⟩ | ⟨-, rfl, -⟩ | ⟨hopened, -⟩⟩ := create_cases hcreate
    · cases hopened
    · split at h
      · cases h
        exact .inl rfl
      · cases h
    · cases hopened
  · rename_i fs' hcreate
    obtain ⟨-, ⟨l, hopened, -⟩ | ⟨hopened, -⟩ | ⟨-, rfl, -⟩⟩ := create_cases hcreate
    · cases hopened
    · cases hopened
    · cases h
      exact .inl rfl

/-- Only the place that the path then leads to is changed. -/
theorem write_changes {text : String} (h : w.write p text = .ok fs) {q : Location} (hq : fs.lookup q ≠ w.fs.lookup q) :
    (Place.mk fs w.here).find p = .ok (q, .file text) := by
  obtain rfl | ⟨l, hnul, hspot, rfl⟩ := write_spot h
  · exact absurd rfl hq
  · have hql : q = l := by
      by_contra hne
      exact hq (lookup_set_of_ne w.fs (.file text) hne)
    rw [find, hnul, target_set_of_spot hspot, hql]
    rfl

theorem IsReal.of_lookup (hw : w.IsReal) (h : ∀ l, w.fs.lookup l = some .directory → fs.lookup l = some .directory) :
    (Place.mk fs w.here).IsReal :=
  ⟨hw.names, fun d n hd => h _ (hw.directories d n hd)⟩

theorem isFree_of_target {purpose : Purpose} {l : Location} (h : (w.target purpose p).IsSpot l) : w.fs.IsFree l := by
  obtain ⟨e, hfailed⟩ | ⟨start, names, hwalk⟩ := target_cases purpose w.here p
  · exact absurd (hfailed w.fs ▸ h) (Target.not_isSpot_failed l e)
  · exact isFree_of_walkLinks _ _ _ (hwalk w.fs ▸ h)

/-- Directories stay when a text is written. -/
theorem lookup_directory_of_write {text : String} (h : w.write p text = .ok fs) {l : Location}
    (hl : w.fs.lookup l = some .directory) : fs.lookup l = some .directory := by
  obtain rfl | ⟨l', -, hspot, rfl⟩ := write_spot h
  · exact hl
  · exact lookup_set_of_isFree (isFree_of_target hspot) hl nofun (.file text)

theorem read_of_found_null (h : w.found? p = some .nullDevice) : w.read p = .ok "" := by
  unfold found? at h
  unfold read
  split at h
  · rename_i r hfind
    obtain ⟨l, e⟩ := r
    cases h
    rw [hfind]
  · cases h

end FileSystem.Place

namespace Settings

open FileSystem.Place (locationPath IsName)

/-! ## The file -/

theorem isEntryName_directoryName : IsEntryName directoryName := ⟨by decide, by decide, by decide, by decide⟩

theorem isEntryName_fileName : IsEntryName fileName := ⟨by decide, by decide, by decide, by decide⟩

theorem isAbsolute_settingsDirectoryIn (d : Location) : (settingsDirectoryIn d).isAbsolute = true :=
  Path.isAbsolute_join (Place.isAbsolute_locationPath d) _

theorem isAbsolute_settingsFileIn (d : Location) : (settingsFileIn d).isAbsolute = true :=
  Path.isAbsolute_join (isAbsolute_settingsDirectoryIn d) _

/-- The settings file of the current directory, as `install` names it. -/
theorem fileBelow_here : fileBelow ⟨"."⟩ = relativeFile.dotted := by decide

theorem settingsFileIn_eq (d : Location) : settingsFileIn d = (locationPath d).join relativeFile ∧
    settingsFileIn d = ⟨(settingsDirectoryIn d).text ++ "/" ++ fileName⟩ := by
  have hparts : (locationPath d).join relativeFile = ⟨(settingsDirectoryIn d).text ++ "/" ++ fileName⟩ := by
    have hrelative : relativeFile = ⟨directoryName ++ "/" ++ fileName⟩ := by decide
    rw [hrelative, Path.join_parts (by decide) (by decide)]
    rfl
  have hlast : (settingsDirectoryIn d).text.toList.getLast? = some 'w' := by
    have hne : (locationPath d).text ≠ "" := Path.ne_empty_of_isAbsolute (Place.isAbsolute_locationPath d)
    obtain ⟨a, hjoin, -⟩ := Path.toList_join hne (by decide : (Path.mk directoryName).isAbsolute = false)
    rw [settingsDirectoryIn, hjoin, List.getLast?_append_of_ne_nil _ (List.cons_ne_nil _ _)]
    decide
  have hfile : settingsFileIn d = ⟨(settingsDirectoryIn d).text ++ "/" ++ fileName⟩ := by
    rw [settingsFileIn, Path.join, if_neg (by decide), hlast]
    rfl
  exact ⟨hfile.trans hparts.symm, hfile⟩

section Workspace

variable {w : Place} {env : Environment}

/-- A settings directory in the current directory is the nearest one. -/
theorem nearest?_of_isDirectory (h : w.isDirectory (settingsDirectoryIn w.here) = true) : nearest? w = some w.here := by
  have hinits : ∃ rest, w.here.inits.reverse = w.here :: rest := by
    rcases List.eq_nil_or_concat' w.here with hnil | ⟨l, n, hl⟩
    · exact ⟨[], by rw [hnil]; rfl⟩
    · rw [hl]
      exact ⟨l.inits.reverse, by simp [List.inits_append]⟩
  obtain ⟨rest, hrest⟩ := hinits
  simp [nearest?, hrest, h]

/-- The settings file of the current directory is found under its absolute path, if that is not too long. -/
theorem nearest?_of_found (hw : w.IsReal) (hshort : (settingsFileIn w.here).text.utf8ByteSize < pathLimit)
    {e : Entry} (hfound : w.found? (fileBelow ⟨"."⟩) = some e) :
    nearest? w = some w.here ∧ w.found? (settingsFileIn w.here) = some e := by
  obtain ⟨hjoin, hbelow⟩ := settingsFileIn_eq w.here
  have hfile : w.found? (settingsFileIn w.here) = some e := by
    rw [hjoin] at hshort ⊢
    rw [Place.found?_join_locationPath hw (by decide) (by decide) hshort, ← hfound, fileBelow_here,
      Place.found?_dotted w (by decide) (by decide) (by decide)]
  have hne : (settingsDirectoryIn w.here).text ≠ "" :=
    Path.ne_empty_of_isAbsolute (isAbsolute_settingsDirectoryIn w.here)
  refine ⟨nearest?_of_isDirectory (Place.isDirectory_of_found_below hne (hbelow ▸ hfile)), hfile⟩

/-! ## The template -/

/-- A text is read by its characters, which are at hand if it is given by them. -/
theorem parse_ofList (e : Toml.Edition) (cs : List Char) : Toml.parse e (String.ofList cs) =
    (Toml.linesFrom e (cs.length + 1) ⟨[], []⟩ (Toml.dropMark cs)).map Toml.entriesData := by
  rw [Toml.parse, ← String.length_toList, String.toList_ofList]

-- The characters of the template are found by unification; computing them from its bytes would take minutes.
set_option maxRecDepth 8000 in
theorem ofLoadedText_template : ofLoadedText template = .ok standard := by
  rw [ofLoadedText, show Toml.parse .first template = _ from parse_ofList .first _]
  decide +kernel

set_option maxRecDepth 8000 in
theorem ofDocument_template : ofDocument template = .ok standard := by
  rw [ofDocument, show Toml.parse .second template = _ from parse_ofList .second _]
  decide +kernel

/-- What stands in the settings file of a workspace that was set up: the template, or nothing if the file is the device
that forgets. Both mean the standard settings. -/
def SaysStandard (e : Entry) : Prop := e = .file template ∨ e = .nullDevice

theorem SaysStandard.read {e : Entry} (he : SaysStandard e) {p : Path} (hfound : w.found? p = some e) :
    ∃ text, w.read p = .ok text ∧ ofLoadedText text = .ok standard ∧ ofDocument text = .ok standard := by
  rcases he with rfl | rfl
  · exact ⟨template, Place.read_of_found hfound, ofLoadedText_template, ofDocument_template⟩
  · exact ⟨"", Place.read_of_found_null hfound, rfl, rfl⟩

/-- A workspace whose settings file is found passes the check and has the standard settings. -/
theorem governed_of_found (hw : w.IsReal) (hshort : (settingsFileIn w.here).text.utf8ByteSize < pathLimit)
    {e : Entry} (he : SaysStandard e) (hfound : w.found? (fileBelow ⟨"."⟩) = some e) (henv : env.paths = []) :
    check w = .ok () ∧ load w env = .ok standard := by
  have hnames : ∀ n ∈ w.here, IsName n := fun n hn => (hw.names n hn).name
  obtain ⟨hnearest, hfile⟩ := nearest?_of_found hw hshort hfound
  obtain ⟨text, hread, hloaded, hdocument⟩ := he.read hfile
  have hworkspace : workspaceFile? w = some (settingsFileIn w.here) := by
    rw [workspaceFile?_eq hnames, hnearest, Option.map_some]
  rw [check_of_read hworkspace hread, hdocument, load_of_read hnames henv hnearest hread, hloaded]
  exact ⟨rfl, rfl⟩

/-- A workspace in which no settings directory is found under an absolute path is checked under the relative path, and
nothing is loaded over the standard settings. -/
theorem governed_of_nearest?_none (hw : w.IsReal) (hnearest : nearest? w = none) {e : Entry}
    (he : SaysStandard e) (hfound : w.found? (fileBelow ⟨"."⟩) = some e) (henv : env.paths = []) :
    check w = .ok () ∧ load w env = .ok standard := by
  have hnames : ∀ n ∈ w.here, IsName n := fun n hn => (hw.names n hn).name
  rw [fileBelow_here, Place.found?_dotted w (by decide) (by decide) (by decide)] at hfound
  obtain ⟨text, hread, -, hdocument⟩ := he.read hfound
  have hworkspace : workspaceFile w = relativeFile := by
    rw [workspaceFile, workspaceFile?_eq hnames, hnearest]
    rfl
  constructor
  · simp [check, hworkspace, Place.doesExist, hfound, hread, hdocument]
  · rw [load_eq hnames, hnearest, Option.bind_none, ofText_none_alone henv]

end Workspace

/-! ## Setting up -/

section Install

variable {w : Place} {root file : Path} {force : Bool} {fs : FileSystem}

/-- A file that was written below a directory: the directories above it were made first. -/
theorem writeBelow_ok {directory path : Path} {text : String} (h : writeBelow w directory path text = (.ok (), fs)) :
    ∃ made, w.fs.AddsDirectories made ∧ Place.write ⟨made, w.here⟩ path text = .ok fs := by
  have hadds := w.makeDirectories_adds directory
  unfold writeBelow at h
  split at h
  · cases h
  · rename_i made hmake
    rw [hmake] at hadds
    split at h
    · cases h
    · rename_i hwrite
      cases h
      exact ⟨made, hadds, hwrite⟩

theorem install_ok (h : install w root force = (.ok file, fs)) :
    ∃ made, w.fs.AddsDirectories made ∧ Place.write ⟨made, w.here⟩ (fileBelow root) template = .ok fs := by
  unfold install at h
  dsimp only at h
  split at h
  · cases h
  · split at h
    · cases h
    · rename_i hwrite
      cases h
      exact writeBelow_ok hwrite

theorem template_not_empty : template.isEmpty = false := by simp [template]

/-- Without force a settings file that exists is not replaced. A workspace that was set up has no file changed but the
one that the path of its settings file leads to. It passes the check, and without variables for settings the standard
settings are loaded, if the absolute path of the file is not too long, or if no settings directory is found under an
absolute path. -/
theorem install_protects_and_governs (hw : w.IsReal) :
    (w.doesExist (fileBelow ⟨"."⟩) = true → install w ⟨"."⟩ false = (.error .present, w.fs)) ∧
    ∀ force file fs, install w ⟨"."⟩ force = (.ok file, fs) →
      (∀ q, fs.lookup q ≠ w.fs.lookup q → w.fs.lookup q = none ∧ fs.lookup q = some .directory ∨
        (Place.mk fs w.here).find (fileBelow ⟨"."⟩) = .ok (q, .file template)) ∧
      ((settingsFileIn w.here).text.utf8ByteSize < pathLimit ∨ nearest? ⟨fs, w.here⟩ = none →
        ∀ env : Environment, env.paths = [] →
          check ⟨fs, w.here⟩ = .ok () ∧ load ⟨fs, w.here⟩ env = .ok standard) := by
  refine ⟨fun hexists => by simp [install, hexists], fun force file fs hinstall => ?_⟩
  obtain ⟨made, hadds, hwrite⟩ := install_ok hinstall
  constructor
  · intro q hq
    by_cases hmade : fs.lookup q = made.lookup q
    · rw [hmade] at hq ⊢
      exact .inl ((hadds q).resolve_left hq)
    · exact .inr (Place.write_changes hwrite hmade)
  · have hreal : (Place.mk fs w.here).IsReal :=
      hw.of_lookup fun l hl => Place.lookup_directory_of_write hwrite (hadds.lookup hl)
    obtain ⟨e, he, hfound⟩ : ∃ e, SaysStandard e ∧ (Place.mk fs w.here).found? (fileBelow ⟨"."⟩) = some e := by
      rcases Place.write_cases template_not_empty hwrite with hfile | ⟨rfl, hnull⟩
      · exact ⟨_, .inl rfl, hfile⟩
      · exact ⟨_, .inr rfl, hnull⟩
    rintro (hshort | hnearest) env henv
    · exact governed_of_found hreal hshort he hfound henv
    · exact governed_of_nearest?_none hreal hnearest he hfound henv

/-- A directory below one with settings, and a link to a file elsewhere in its settings directory. -/
def linkedWorkspace : Place where
  fs := (((((bare.set [".clangview"] .directory).set [".clangview", "settings.toml"] (.file "version = 2")).set
    ["a"] .directory).set ["a", ".clangview"] .directory).set ["a", ".clangview", "settings.toml"]
      (.link "../own.toml")).set ["a", "own.toml"] (.file "[")
  here := ["a"]

theorem linkedWorkspace_isReal : linkedWorkspace.IsReal := by
  refine ⟨fun n hn => ?_, fun d n hd => ?_⟩
  · rw [List.mem_singleton.1 hn]
    exact ⟨by decide, by decide, by decide, by decide⟩
  · rcases d with _ | ⟨m, d⟩
    · obtain rfl : n = "a" := by simpa [linkedWorkspace] using hd
      decide
    · simp [linkedWorkspace] at hd

/-- With force the file that the link leads to is replaced, and neither it nor the settings above shine through. -/
theorem linkedWorkspace_governed : ∃ fs, install linkedWorkspace ⟨"."⟩ true = (.ok (fileBelow ⟨"."⟩), fs) ∧
    install linkedWorkspace ⟨"."⟩ false = (.error .present, linkedWorkspace.fs) ∧
    check linkedWorkspace ≠ .ok () ∧ check ⟨fs, linkedWorkspace.here⟩ = .ok () ∧
    load ⟨fs, linkedWorkspace.here⟩ [("HOME", "/")] = .ok standard := by
  have hok : (install linkedWorkspace ⟨"."⟩ true).1 = .ok (fileBelow ⟨"."⟩) := by decide +kernel
  obtain ⟨fs, hinstall⟩ : ∃ fs, install linkedWorkspace ⟨"."⟩ true = (.ok (fileBelow ⟨"."⟩), fs) := by
    rw [← hok]
    exact ⟨_, (Prod.eta _).symm⟩
  obtain ⟨hprotects, hgoverns⟩ := install_protects_and_governs linkedWorkspace_isReal
  obtain ⟨-, hgoverned⟩ := hgoverns true _ fs hinstall
  exact ⟨fs, hinstall, hprotects (by decide +kernel), by decide +kernel,
    hgoverned (.inl (by decide)) [("HOME", "/")] rfl⟩

end Install

/-! ## A settings directory that is overlooked -/

section Overlooked

variable {fs : FileSystem} {here outer : Location} {name : String}

/-- Where the path of the settings file leads from the current directory. -/
theorem target_fileBelow (fs : FileSystem) (here : Location) (purpose : Purpose) :
    (Place.mk fs here).target purpose (fileBelow ⟨"."⟩) = walkLinks fs purpose 40 here [directoryName, fileName] := by
  have hnames : (Path.cut relativeFile.text.toList).map String.ofList = [directoryName, fileName] := by decide
  rw [Place.target, if_neg (by decide), fileBelow_here, Place.resolve_dotted _ _ (by decide) (by decide), Place.resolve,
    if_neg (by decide), if_neg (by decide), hnames]

theorem found?_fileBelow (hdirectory : fs.lookup (here ++ [directoryName]) = some .directory) {text : String}
    (hfile : fs.lookup (here ++ [directoryName] ++ [fileName]) = some (.file text)) :
    (Place.mk fs here).found? (fileBelow ⟨"."⟩) = some (.file text) := by
  rw [Place.found?_eq_target (by decide), target_fileBelow,
    (walkLinks_before isEntryName_directoryName (by decide) _ _).2 hdirectory,
    (walkLinks_last isEntryName_fileName _ _).2 text hfile]

/-- Where there is no settings directory, one is made. -/
theorem makeDirectories_fresh (hdirectory : fs.lookup (here ++ [directoryName]) = none) :
    (Place.mk fs here).makeDirectories ⟨"./.clangview"⟩ = (.ok (), fs.set (here ++ [directoryName]) .directory) := by
  have hancestors : (Path.mk "./.clangview").ancestors = [⟨"./.clangview"⟩, ⟨"."⟩, ⟨""⟩] := by decide
  have hnames : (Path.cut "./.clangview".toList).map String.ofList = [".", directoryName] := by decide
  have htarget : (Place.mk fs here).target .make ⟨"./.clangview"⟩ = .vacant (here ++ [directoryName]) false := by
    rw [Place.target, if_neg (by decide), Place.resolve, if_neg (by decide), if_neg (by decide), hnames,
      walkLinks_idle _ _ _ _ (by decide), (walkLinks_last isEntryName_directoryName _ _).1 hdirectory]
  rw [Place.makeDirectories, hancestors, Place.makeAncestors, if_neg (by decide), Place.makeDirectory,
    if_neg (by decide), htarget]

/-- In a settings directory without a settings file, the file is made. -/
theorem write_fresh (hdirectory : fs.lookup (here ++ [directoryName]) = some .directory)
    (hfile : fs.lookup (here ++ [directoryName] ++ [fileName]) = none) (text : String) :
    (Place.mk fs here).write (fileBelow ⟨"."⟩) text =
      .ok (fs.set (here ++ [directoryName] ++ [fileName]) (.file text)) := by
  rw [Place.write, Place.create, if_neg (by decide), target_fileBelow,
    (walkLinks_before isEntryName_directoryName (by decide) _ _).2 hdirectory,
    (walkLinks_last isEntryName_fileName _ _).1 hfile]
  simp only [set_set]

/-- Where there is no settings directory, one is made with the template in it. -/
theorem install_fresh (hdirectory : fs.lookup (here ++ [directoryName]) = none)
    (hfile : fs.lookup (here ++ [directoryName] ++ [fileName]) = none) (force : Bool) :
    install ⟨fs, here⟩ ⟨"."⟩ force = (.ok (fileBelow ⟨"."⟩),
      (fs.set (here ++ [directoryName]) .directory).set (here ++ [directoryName] ++ [fileName]) (.file template)) := by
  have hexists : (Place.mk fs here).doesExist (fileBelow ⟨"."⟩) = false := by
    rw [Place.doesExist, Place.found?_eq_target (by decide), target_fileBelow,
      (walkLinks_before isEntryName_directoryName (by decide) _ _).1 hdirectory]
    rfl
  have hparent : (fileBelow ⟨"."⟩).parent.getD ⟨""⟩ = ⟨"./.clangview"⟩ := by decide
  have hwrite := @write_fresh (fs.set (here ++ [directoryName]) .directory) here (lookup_set_self _ _ _)
    (by rw [lookup_set_of_ne _ _ (by simp), hfile]) template
  simp only [install, hexists, writeBelow, hparent, makeDirectories_fresh hdirectory, hwrite]
  simp

/-- A settings directory whose absolute path is too long is overlooked. -/
theorem nearest?_of_long (hlong : pathLimit ≤ (settingsDirectoryIn (outer ++ [name])).text.utf8ByteSize) :
    nearest? ⟨fs, outer ++ [name]⟩ = nearest? ⟨fs, outer⟩ := by
  have hsame : (fun d => (Place.mk fs (outer ++ [name])).isDirectory (settingsDirectoryIn d)) =
      fun d => (Place.mk fs outer).isDirectory (settingsDirectoryIn d) := by
    funext d
    rw [Place.isDirectory, Place.isDirectory, Place.found?, Place.found?,
      Place.find_of_isAbsolute (isAbsolute_settingsDirectoryIn d) fs (outer ++ [name]) outer]
  have hoverlooked : (Place.mk fs outer).isDirectory (settingsDirectoryIn (outer ++ [name])) = false := by
    rw [Place.isDirectory, Place.found?_of_long hlong]
    rfl
  have hinits : (outer ++ [name]).inits.reverse = (outer ++ [name]) :: outer.inits.reverse := by
    simp [List.inits_append]
  rw [nearest?, nearest?, hsame, hinits, List.find?_cons_of_neg (by simp [hoverlooked])]

/-- Then the settings are those of the directory above. -/
theorem load_of_long (hnames : ∀ n ∈ outer ++ [name], IsName n)
    (hlong : pathLimit ≤ (settingsDirectoryIn (outer ++ [name])).text.utf8ByteSize) (env : Environment) :
    load ⟨fs, outer ++ [name]⟩ env = load ⟨fs, outer⟩ env := by
  have habove : ∀ n ∈ (Place.mk fs outer).here, IsName n := fun n hn => hnames n (List.mem_append_left _ hn)
  have hsame : (fun d => textAt ⟨fs, outer ++ [name]⟩ (settingsFileIn d)) =
      fun d => textAt ⟨fs, outer⟩ (settingsFileIn d) := by
    funext d
    rw [textAt, textAt, Place.read, Place.read,
      Place.find_of_isAbsolute (isAbsolute_settingsFileIn d) fs (outer ++ [name]) outer]
  rw [load_eq hnames, load_eq habove, nearest?_of_long hlong, hsame]

/-- Settings that are set up in a directory that lies too deep do not govern it: those of the directory above do. -/
theorem install_of_long (hw : (Place.mk fs (outer ++ [name])).IsReal)
    (hlong : pathLimit ≤ (settingsDirectoryIn (outer ++ [name])).text.utf8ByteSize)
    (hdirectory : fs.lookup (outer ++ [name] ++ [directoryName]) = none)
    (hfile : fs.lookup (outer ++ [name] ++ [directoryName] ++ [fileName]) = none)
    (hshort : (settingsFileIn outer).text.utf8ByteSize < pathLimit)
    (houter : fs.lookup (outer ++ [directoryName]) = some .directory) {text : String}
    (htext : fs.lookup (outer ++ [directoryName] ++ [fileName]) = some (.file text)) (force : Bool) :
    ∃ fs', install ⟨fs, outer ++ [name]⟩ ⟨"."⟩ force = (.ok (fileBelow ⟨"."⟩), fs') ∧
      load ⟨fs', outer ++ [name]⟩ [] = ofLoadedText text := by
  refine ⟨_, install_fresh hdirectory hfile force, ?_⟩
  have hlookup {l : Location} {e : Entry} (h : fs.lookup l = some e) :
      ((fs.set (outer ++ [name] ++ [directoryName]) .directory).set (outer ++ [name] ++ [directoryName] ++ [fileName])
        (.file template)).lookup l = some e := by
    rw [lookup_set_of_ne _ _ (by rintro rfl; cases hfile.symm.trans h),
      lookup_set_of_ne _ _ (by rintro rfl; cases hdirectory.symm.trans h), h]
  -- From here on it only matters that the new system has what the old one had.
  generalize (fs.set (outer ++ [name] ++ [directoryName]) .directory).set _ _ = fs' at hlookup ⊢
  have hreal : (Place.mk fs' outer).IsReal :=
    ⟨fun n hn => hw.names n (List.mem_append_left _ hn),
      fun d n hd => hlookup (hw.directories d n (hd.trans (List.prefix_append _ _)))⟩
  obtain ⟨hnearest, hfound⟩ := nearest?_of_found hreal hshort (found?_fileBelow (hlookup houter) (hlookup htext))
  rw [load_of_long (fun n hn => (hw.names n hn).name) hlong,
    load_of_read (fun n hn => (hreal.names n hn).name) rfl hnearest (Place.read_of_found hfound)]

/-- A directory in one that has settings. -/
def innerWorld (outer : Location) (name : String) : Place where
  fs := ⟨fun l =>
    if l <+: outer ++ [name] ∨ l = outer ++ [directoryName] then some .directory
    else if l = outer ++ [directoryName] ++ [fileName] then some (.file "version = 2")
    else none⟩
  here := outer ++ [name]

theorem innerWorld_isReal (hnames : ∀ n ∈ outer ++ [name], IsEntryName n) : (innerWorld outer name).IsReal :=
  ⟨hnames, fun _ _ hd => if_pos (.inl hd)⟩

theorem innerWorld_install (hnames : ∀ n ∈ outer ++ [name], IsEntryName n)
    (hlong : pathLimit ≤ (settingsDirectoryIn (outer ++ [name])).text.utf8ByteSize)
    (hshort : (settingsFileIn outer).text.utf8ByteSize < pathLimit) (force : Bool) :
    ∃ fs, install (innerWorld outer name) ⟨"."⟩ force = (.ok (fileBelow ⟨"."⟩), fs) ∧
      load ⟨fs, (innerWorld outer name).here⟩ [] = .ok { standard with version := 2 } := by
  have hbelow (more : Location) : ¬ outer ++ [name] ++ (directoryName :: more) <+: outer ++ [name] := by
    intro h
    have hlength := h.length_le
    simp at hlength
  have hother : directoryName ≠ fileName := by decide
  have hdirectory : (innerWorld outer name).fs.lookup (outer ++ [name] ++ [directoryName]) = none := by
    have hnot := hbelow []
    simp_all [innerWorld]
  have hfile : (innerWorld outer name).fs.lookup (outer ++ [name] ++ [directoryName] ++ [fileName]) = none := by
    have hnot := hbelow [fileName]
    simp_all [innerWorld]
  have hversion : ofLoadedText "version = 2" = .ok { standard with version := 2 } := by decide +kernel
  rw [← hversion]
  refine install_of_long (innerWorld_isReal hnames) hlong hdirectory hfile hshort (if_pos (.inr rfl)) ?_ force
  simp

/-- A name of the greatest length. -/
def longName : String := String.ofList (List.replicate nameLimit 'd')

theorem utf8ByteSize_longName : longName.utf8ByteSize = nameLimit := by
  have hd : Char.utf8Size 'd' = 1 := by decide
  have hreplicate (k : Nat) : (String.ofList (List.replicate k 'd')).utf8ByteSize = k := by
    induction k with
    | zero => rfl
    | succ k ih =>
      rw [List.replicate_succ, String.ofList_cons, String.utf8ByteSize_append, ih, String.utf8ByteSize_singleton, hd,
        Nat.add_comm]
  exact hreplicate nameLimit

theorem isEntryName_longName : IsEntryName longName := by
  have hlist : longName.toList = List.replicate nameLimit 'd' := String.toList_ofList
  have hne (n : String) (hn : n.utf8ByteSize ≠ nameLimit) : longName ≠ n := by
    rintro rfl
    exact hn utf8ByteSize_longName
  refine ⟨⟨?_, ?_⟩, hne ".." (by decide), ?_, Nat.le_of_eq utf8ByteSize_longName⟩
  · simp [isIdleName, hne "" (by decide), hne "." (by decide)]
  · simp [hlist]
  · simp [hlist]

/-- Fifteen directories with names of the greatest length. -/
def deepLocation : Location := List.replicate 15 longName

theorem deepLocation_sizes :
    (settingsFileIn deepLocation).text.utf8ByteSize < pathLimit ∧
      pathLimit ≤ (settingsDirectoryIn (deepLocation ++ [longName])).text.utf8ByteSize := by
  have hsize (k : Nat) (hk : k ≠ 0) : (locationPath (List.replicate k longName)).text.utf8ByteSize = k * 256 := by
    have hnames : ∀ n ∈ List.replicate k longName, n.utf8ByteSize = nameLimit := by
      intro n hn
      rw [List.eq_of_mem_replicate hn, utf8ByteSize_longName]
    rw [Place.utf8ByteSize_locationPath (by simpa using hk) hnames, List.length_replicate, nameLimit]
  have hdirectory (d : Location) : (locationPath d).text.utf8ByteSize + 10 ≤ (settingsDirectoryIn d).text.utf8ByteSize ∧
      (settingsDirectoryIn d).text.utf8ByteSize ≤ (locationPath d).text.utf8ByteSize + 11 :=
    Path.utf8ByteSize_join _ (rfl : (Path.mk directoryName).isAbsolute = false)
  have hfile (d : Location) : (settingsFileIn d).text.utf8ByteSize ≤ (settingsDirectoryIn d).text.utf8ByteSize + 14 :=
    (Path.utf8ByteSize_join _ (rfl : (Path.mk fileName).isAbsolute = false)).2
  have houter : (locationPath deepLocation).text.utf8ByteSize = 3840 := hsize 15 (by decide)
  have hinner : (locationPath (deepLocation ++ [longName])).text.utf8ByteSize = 4096 := by
    rw [deepLocation, ← List.replicate_succ', hsize (15 + 1) (by decide)]
  have hlower := (hdirectory (deepLocation ++ [longName])).1
  have hupper := Nat.le_trans (hfile deepLocation) (Nat.add_le_add_right (hdirectory deepLocation).2 14)
  rw [pathLimit]
  omega

/-- In a directory that lies too deep, settings are set up, but not loaded. -/
theorem deepWorld_not_governed : (innerWorld deepLocation longName).IsReal ∧ ∃ fs,
    install (innerWorld deepLocation longName) ⟨"."⟩ false = (.ok (fileBelow ⟨"."⟩), fs) ∧
      load ⟨fs, (innerWorld deepLocation longName).here⟩ [] ≠ .ok standard := by
  have hnames : ∀ n ∈ deepLocation ++ [longName], IsEntryName n := by
    intro n hn
    obtain rfl : n = longName := by simpa [deepLocation] using hn
    exact isEntryName_longName
  obtain ⟨hshort, hlong⟩ := deepLocation_sizes
  obtain ⟨fs, hinstall, hload⟩ := innerWorld_install hnames hlong hshort false
  refine ⟨innerWorld_isReal hnames, fs, hinstall, fun hstandard => ?_⟩
  exact absurd (Except.ok.inj (hload.symm.trans hstandard)) (by decide)

end Overlooked

end Settings

end SyntaxView
