import SyntaxView.Proofs.FileSystem
import SyntaxView.Proofs.Settings.Layers
import SyntaxView.Proofs.Toml.Document
import SyntaxView.Proofs.Tree.Json
import SyntaxView.Settings.Save

/-!
# Loading saved settings

Settings are written as a document with a table for each section (`toList_toToml`). It is read as the data of the
settings (`parse_toToml`), and no value in it is taken for a wrapped one (`unwrapTop?_saved`). The data covers all
standard settings that it is laid over (`saved_laidOver_standard`), and it is read as the settings that were written
(`ofData_saved`).

Before the file is written, the directories above it are made, which changes nothing that exists (`save_cases`). So
`saved_settings_load` has two parts: settings that were saved are loaded as they were, and what fails to be saved leaves
all files as they were.
-/

namespace SyntaxView

instance : LawfulLabelled OutputFormat := ⟨fun a => by cases a <;> decide⟩

instance : LawfulLabelled ParseOption := ⟨fun a => by cases a <;> decide⟩

namespace Settings

open FileSystem (Place)
open Toml (Edition Row Written writeChars)

/-! ## The document -/

section Document

variable {e : Edition}

def textsData (texts : List String) : Data := .list (texts.map .text)

/-- The labels of options, as texts. -/
def optionTexts (options : List ParseOption) : List String := options.map Labelled.label

/-- The rows of settings that are in no section. -/
def plainRows (s : Settings) : List Row :=
  [⟨"version", (Nat.repr s.version.toNat).toList, .int s.version.toNat⟩,
    ⟨"debug", (Toml.writeBool s.debug).toList, .bool s.debug⟩,
    ⟨"log_level", writeChars s.logLevel.toList, .text s.logLevel⟩]

def parsingRows (p : ParsingSettings) : List Row :=
  [⟨"exclude_pch_declarations", (Toml.writeBool p.excludePchDeclarations).toList, .bool p.excludePchDeclarations⟩,
    ⟨"diagnostics", (Toml.writeBool p.diagnostics).toList, .bool p.diagnostics⟩,
    ⟨"default_args", (Toml.writeArray (p.defaultArguments.map Toml.writeText)).toList, textsData p.defaultArguments⟩,
    ⟨"options", (Toml.writeArray ((optionTexts p.options).map Toml.writeText)).toList,
      textsData (optionTexts p.options)⟩]

def outputRows (o : OutputSettings) : List Row :=
  ⟨"format", writeChars (Labelled.label o.format).toList, .text (Labelled.label o.format)⟩ ::
    (o.maxDepth.map fun d => ⟨"max_depth", (Nat.repr d.toNat).toList, .int d.toNat⟩).toList

def document (s : Settings) : Toml.Document where
  rows := plainRows s
  tables := [⟨"parsing", parsingRows s.parsing⟩, ⟨"output", outputRows s.output⟩]

theorem toList_toToml (s : Settings) : s.toToml.toList = (document s).text := by
  have hoptions : (s.parsing.options.map fun o => Toml.writeText (Labelled.label o)) =
      (optionTexts s.parsing.options).map Toml.writeText := by
    rw [optionTexts, List.map_map]
    rfl
  have htext (text : String) : (Toml.writeText text).toList = writeChars text.toList := String.toList_ofList
  cases hdepth : s.output.maxDepth <;>
    simp [Settings.toToml, ParsingSettings.toToml, OutputSettings.toToml, Toml.writeEntry, document, plainRows,
      parsingRows, outputRows, Row.line, Toml.Document.text, Toml.Division.text, Toml.headerLine, hdepth, hoptions, htext]

theorem written_label {depth : Nat} (text : String) : Written e depth (writeChars text.toList) (.text text) := by
  have h : Written e depth _ _ := Toml.written_text text.toList
  rwa [String.ofList_toList] at h

theorem written_texts (he : 0 < e.nesting) (texts : List String) :
    Written e e.nesting (Toml.writeArray (texts.map Toml.writeText)).toList (textsData texts) := by
  obtain ⟨depth, hdepth⟩ := Nat.exists_eq_succ_of_ne_zero (Nat.ne_of_gt he)
  let items : Toml.Items := texts.map fun t => (writeChars t.toList, .text t)
  have hitems : ∀ i ∈ items, Written e depth i.1 i.2 := by
    intro i hi
    obtain ⟨t, -, rfl⟩ := List.mem_map.mp hi
    exact written_label t
  have htexts : items.map (fun i => String.ofList i.1) = texts.map Toml.writeText := List.map_map
  have hvalues : items.map Prod.snd = texts.map .text := List.map_map
  have harray := Toml.written_array items hitems
  rwa [htexts, hvalues, ← Nat.succ_eq_add_one, ← hdepth] at harray

/-- The numbers of the settings are within the limits of the edition. -/
structure FitsIn (e : Edition) (s : Settings) : Prop where
  version : e.holds s.version.toNat = true
  maxDepth : ∀ d, s.output.maxDepth = some d → e.holds d.toNat = true

theorem rows_ok (he : 0 < e.nesting) {s : Settings} (hs : s.FitsIn e) :
    ∀ r ∈ plainRows s ++ (parsingRows s.parsing ++ outputRows s.output), r.Ok e := by
  have hbare : ∀ name ∈ names ++ (ParsingSettings.names ++ OutputSettings.names), Toml.IsBare name := by decide
  intro r hr
  simp only [plainRows, parsingRows, outputRows, List.mem_append, List.mem_cons, List.not_mem_nil, or_false,
    Option.mem_toList, Option.map_eq_some_iff] at hr
  rcases hr with (rfl | rfl | rfl) | (rfl | rfl | rfl | rfl) | rfl | ⟨d, hd, rfl⟩
  · exact ⟨hbare "version" (by decide), Toml.written_nat hs.version⟩
  · exact ⟨hbare "debug" (by decide), Toml.written_bool _⟩
  · exact ⟨hbare "log_level" (by decide), written_label _⟩
  · exact ⟨hbare "exclude_pch_declarations" (by decide), Toml.written_bool _⟩
  · exact ⟨hbare "diagnostics" (by decide), Toml.written_bool _⟩
  · exact ⟨hbare "default_args" (by decide), written_texts he _⟩
  · exact ⟨hbare "options" (by decide), written_texts he _⟩
  · exact ⟨hbare "format" (by decide), written_label _⟩
  · exact ⟨hbare "max_depth" (by decide), Toml.written_nat (hs.maxDepth d hd)⟩

theorem document_ok (he : 0 < e.nesting) {s : Settings} (hs : s.FitsIn e) : (document s).Ok e := by
  have hrows := rows_ok he hs
  simp only [List.forall_mem_append] at hrows
  obtain ⟨hplain, hparsing, houtput⟩ := hrows
  have hkeys : ((outputRows s.output).map Row.key).Nodup := by
    unfold outputRows
    cases s.output.maxDepth with
    | none => exact List.nodup_singleton _
    | some d => exact (by decide : ["format", "max_depth"].Nodup)
  refine ⟨hplain, fun t ht => ?_, (by decide : names.Nodup)⟩
  simp only [document, List.mem_cons, List.not_mem_nil, or_false] at ht
  rcases ht with rfl | rfl
  · exact ⟨(by decide : Toml.IsBare "parsing"), hparsing, (by decide : ParsingSettings.names.Nodup)⟩
  · exact ⟨(by decide : Toml.IsBare "output"), houtput, hkeys⟩

def parsingEntries (p : ParsingSettings) : List (String × Data) :=
  [("default_args", textsData p.defaultArguments), ("diagnostics", .bool p.diagnostics),
    ("exclude_pch_declarations", .bool p.excludePchDeclarations), ("options", textsData (optionTexts p.options))]

def outputEntries (o : OutputSettings) : List (String × Data) :=
  ("format", .text (Labelled.label o.format)) :: (o.maxDepth.map fun d => ("max_depth", Data.int d.toNat)).toList

/-- The data of settings, in the order of the keys. -/
def savedEntries (s : Settings) : List (String × Data) :=
  [("debug", .bool s.debug), ("log_level", .text s.logLevel), ("output", .table (outputEntries s.output)),
    ("parsing", .table (parsingEntries s.parsing)), ("version", .int s.version.toNat)]

theorem entriesData_document (s : Settings) : Toml.entriesData (document s).entries = savedEntries s := by
  cases hdepth : s.output.maxDepth <;>
    simp only [document, plainRows, parsingRows, outputRows, savedEntries, parsingEntries, outputEntries, hdepth,
      Toml.Document.entries, Toml.Division.putIn, Row.putAll, Row.putIn, List.foldl_cons, List.foldl_nil,
      Option.map_none, Option.map_some, Option.toList_none, Option.toList_some, Table.put, String.reduceEq,
      String.reduceLT, ↓reduceIte, Toml.entriesData, Toml.Item.toData]

/-- Settings are read as their data. -/
theorem parse_toToml (he : 0 < e.nesting) {s : Settings} (hs : s.FitsIn e) :
    Toml.parse e s.toToml = some (savedEntries s) := by
  rw [Toml.parse_document he (document_ok he hs) (toList_toToml s), entriesData_document]

end Document

/-! ## The data -/

theorem unwrapItems?_texts (texts : List String) :
    Wrapped.unwrapItems? (texts.map .text) = some (texts.map .text) := by
  induction texts with
  | nil => rfl
  | cons t texts ih => simp [Wrapped.unwrapItems?, Wrapped.unwrap?, ih]

/-- No value of settings is wrapped. -/
theorem unwrapTop?_saved (s : Settings) : Wrapped.unwrapTop? (savedEntries s) = some (savedEntries s) := by
  cases hdepth : s.output.maxDepth <;>
    simp [savedEntries, parsingEntries, outputEntries, hdepth, textsData, Wrapped.unwrapTop?, Wrapped.unwrap?,
      Wrapped.unwrapEntries?, unwrapItems?_texts, Wrapped.ofEntries, Wrapped.valueKey, Wrapped.numberKey,
      Table.lookup_cons]

theorem standardLayer_eq : standardLayer = .table (savedEntries standard) := rfl

/-- Sections have the same keys, so that the upper one covers the lower. -/
theorem parsingEntries_laidOver (p below : ParsingSettings) :
    (Data.table (parsingEntries p)).laidOver (.table (parsingEntries below)) = .table (parsingEntries p) := by
  simp only [parsingEntries, textsData, Data.laidOver, Data.overEntries, Table.put, Table.lookup_cons, String.reduceEq,
    String.reduceLT, ↓reduceIte]

/-- There is no standard depth, so that the upper section covers the standard one. -/
theorem outputEntries_laidOver (o : OutputSettings) :
    (Data.table (outputEntries o)).laidOver (.table (outputEntries .standard)) = .table (outputEntries o) := by
  cases hdepth : o.maxDepth <;>
    simp only [outputEntries, hdepth, OutputSettings.standard, Option.map_none, Option.map_some, Option.toList_none,
      Option.toList_some, Data.laidOver, Data.overEntries, Table.put, Table.lookup_cons, List.lookup_nil,
      String.reduceEq, String.reduceLT, ↓reduceIte]

/-- The standard settings have no entry that saved ones lack. -/
theorem saved_laidOver_standard (s : Settings) :
    (Data.table (savedEntries s)).laidOver standardLayer = .table (savedEntries s) := by
  have hparsing := parsingEntries_laidOver s.parsing .standard
  have houtput := outputEntries_laidOver s.output
  rw [standardLayer_eq, Data.laidOver_table]
  simp only [savedEntries, standard, Data.overEntries, Table.put, Table.lookup_cons, String.reduceEq, String.reduceLT,
    ↓reduceIte, hparsing, houtput]
  simp only [Data.laidOver]

theorem readItems_texts (texts : List String) (i : Nat) :
    Data.readItems Data.asText i (texts.map .text) = .ok texts := by
  induction texts generalizing i with
  | nil => rfl
  | cons t texts ih =>
    rw [List.map_cons, Data.readItems, ih]
    rfl

theorem asLabelled_label {α : Type} [Labelled α] [LawfulLabelled α] (d : Dialect) (a : α) :
    Data.asLabelled d (.text (Labelled.label a)) = .ok a := by
  rw [Data.asLabelled, ofLabel?_label]

theorem readItems_optionTexts (d : Dialect) (options : List ParseOption) (i : Nat) :
    Data.readItems (Data.asLabelled d) i ((optionTexts options).map .text) = .ok options := by
  induction options generalizing i with
  | nil => rfl
  | cons o options ih =>
    unfold optionTexts at ih ⊢
    rw [List.map_cons, List.map_cons, Data.readItems, asLabelled_label, ih]
    rfl

theorem asNat_int {n bound : Nat} (h : n < bound) : Data.asNat bound (.int n) = .ok n := by
  simp [Data.asNat, h]

theorem assignAll_cons {σ : Type} {assign : σ → String → Data → Except SettingsError σ} {s s' : σ} {key name : String}
    {v : Data} (h : assign s name v = .ok s') (rest : List (String × String × Data)) :
    Data.assignAll assign s ((key, name, v) :: rest) = Data.assignAll assign s' rest := by
  rw [Data.assignAll, h]

theorem asSection_parsingEntries (d : Dialect) (p start : ParsingSettings) :
    (Data.table (parsingEntries p)).asSection d ParsingSettings.names (ParsingSettings.assign d) start = .ok p := by
  simp [Data.asSection, Data.sectionValues, Data.assignAll, parsingEntries, ParsingSettings.assign, textsData,
    Data.asBool, Data.asList, readItems_texts, readItems_optionTexts, Except.map]

/-- A depth that is not given is none in the standard settings as well. -/
theorem asSection_outputEntries (d : Dialect) (o : OutputSettings) :
    (Data.table (outputEntries o)).asSection d OutputSettings.names (OutputSettings.assign d) .standard = .ok o := by
  obtain ⟨format, depth⟩ := o
  have hformat : OutputSettings.assign d .standard "format" (.text (Labelled.label format)) = .ok ⟨format, none⟩ := by
    rw [OutputSettings.assign, asLabelled_label]
    rfl
  refine (assignAll_cons hformat _).trans ?_
  cases depth with
  | none => rfl
  | some n =>
    have hdepth : OutputSettings.assign d ⟨format, none⟩ "max_depth" (.int n.toNat) = .ok ⟨format, some n⟩ := by
      rw [OutputSettings.assign, Data.asOptional, asNat_int n.toNat_lt, Except.map, Except.map, Option.map_some,
        UInt64.ofNat_toNat]
      exact nofun
    exact assignAll_cons hdepth []

/-- The data of settings is read as the settings. -/
theorem ofData_saved (d : Dialect) (s : Settings) : ofData d (.table (savedEntries s)) = .ok s := by
  have hdebug (start : Settings) : assign d start "debug" (.bool s.debug) = .ok { start with debug := s.debug } := rfl
  have hlevel (start : Settings) : assign d start "log_level" (.text s.logLevel) =
      .ok { start with logLevel := s.logLevel } := rfl
  have houtput (start : Settings) : assign d start "output" (.table (outputEntries s.output)) =
      .ok { start with output := s.output } := by
    rw [assign_output, asSection_outputEntries, Except.map]
  have hparsing (start : Settings) : assign d start "parsing" (.table (parsingEntries s.parsing)) =
      .ok { start with parsing := s.parsing } := by
    rw [assign_parsing, asSection_parsingEntries, Except.map]
  have hversion (start : Settings) : assign d start "version" (.int s.version.toNat) =
      .ok { start with version := s.version } := by
    rw [assign, asNat_int s.version.toNat_lt, Except.map, UInt32.ofNat_toNat]
  simp only [ofData_eq, Data.asSection, Data.sectionValues, savedEntries, List.map_cons, List.map_nil]
  rw [assignAll_cons (hdebug _), assignAll_cons (hlevel _), assignAll_cons (houtput _), assignAll_cons (hparsing _),
    assignAll_cons (hversion _)]
  rfl

/-! ## Saving -/

section Saving

variable {w : Place} {s : Settings} {path : Path} {fs : FileSystem} {env : Environment}

/-- Without variables for settings, the environment sets nothing. -/
theorem layer_of_paths_nil (h : env.paths = []) : env.layer = .table [] := by
  have hnone : env.filterMap Environment.layer? = [] := by
    rw [List.filterMap_eq_nil_iff]
    intro v hv
    rw [Environment.layer?, List.filterMap_eq_nil_iff.mp h v hv]
    rfl
  rw [Environment.layer, hnone]
  rfl

theorem toToml_not_empty (s : Settings) : s.toToml.isEmpty = false := by
  rw [← Bool.not_eq_true, String.isEmpty_iff]
  intro hempty
  have htext := toList_toToml s
  rw [hempty] at htext
  simp [document, plainRows, Toml.Document.text, Row.line] at htext

/-- Saving makes directories, and then it writes the document or fails. -/
theorem save_cases {result : Except SaveFault Unit} (h : save w s path = (result, fs)) :
    ∃ made, w.fs.AddsDirectories made ∧ ((∃ fault, result = .error fault ∧ fs = made) ∨
      result = .ok () ∧ Place.write ⟨made, w.here⟩ path s.toToml = .ok fs) := by
  unfold save at h
  split at h
  · cases h
    exact ⟨w.fs, .refl _, .inl ⟨_, rfl, rfl⟩⟩
  · rename_i directory hparent
    have hadds := w.makeDirectories_adds directory
    unfold writeBelow at h
    split at h
    · rename_i cause made hmake
      rw [hmake] at hadds
      cases h
      exact ⟨_, hadds, .inl ⟨_, rfl, rfl⟩⟩
    · rename_i made hmake
      rw [hmake] at hadds
      split at h
      · cases h
        exact ⟨_, hadds, .inl ⟨_, rfl, rfl⟩⟩
      · rename_i hwrite
        cases h
        exact ⟨made, hadds, .inr ⟨rfl, hwrite⟩⟩

/-- What becomes of settings that were saved: a file with them, or nothing at the device that forgets. -/
theorem found?_of_save_ok (h : save w s path = (.ok (), fs)) :
    (Place.mk fs w.here).found? path = some (.file s.toToml) ∨ (Place.mk fs w.here).found? path = some .nullDevice := by
  obtain ⟨made, -, ⟨fault, hresult, -⟩ | ⟨-, hwrite⟩⟩ := save_cases h
  · cases hresult
  · refine (Place.write_cases (toToml_not_empty s) hwrite).imp_right ?_
    rintro ⟨rfl, hnull⟩
    exact hnull

/-- What fails to be saved adds directories at most. -/
theorem addsDirectories_of_save_error {fault : SaveFault} (h : save w s path = (.error fault, fs)) :
    w.fs.AddsDirectories fs := by
  obtain ⟨made, hadds, ⟨fault, -, rfl⟩ | ⟨hresult, -⟩⟩ := save_cases h
  · exact hadds
  · cases hresult

theorem holds_first {n : Nat} (h : n < 0x8000000000000000) : Edition.first.holds n = true := by
  have hleast : Edition.first.least ≤ (n : Int) := show -0x8000000000000000 ≤ (n : Int) by omega
  have hmost : (n : Int) ≤ Edition.first.most := show (n : Int) ≤ 0x7fffffffffffffff by omega
  rw [Edition.holds, decide_eq_true hleast, decide_eq_true hmost]
  rfl

/-- The settings can be read back if the depth is an integer of 64 bits with sign. -/
theorem fitsIn_first (hdepth : ∀ d, s.output.maxDepth = some d → d.toNat < 0x8000000000000000) : s.FitsIn .first where
  version := holds_first (Nat.lt_trans s.version.toNat_lt (by decide))
  maxDepth d hd := holds_first (hdepth d hd)

/-- Without variables for settings, the file is laid over the standard settings alone. -/
theorem loadFrom_of_fileLayer (henv : env.paths = []) {entries : List (String × Data)}
    (h : fileLayer w path = .ok (.table entries)) :
    loadFrom w env path = ofData .layered ((Data.table entries).laidOver standardLayer) := by
  rw [loadFrom, h]
  simp only [layer_of_paths_nil henv, standardLayer_eq, Data.laidOver_table]
  rw [Data.overEntries]

/-- A file with settings is loaded as they are. -/
theorem loadFrom_saved (habsolute : path.isAbsolute = true) (henv : env.paths = [])
    (hfile : w.found? path = some (.file s.toToml)) (hs : s.FitsIn .first) : loadFrom w env path = .ok s := by
  have hfind : findFile? w path = some path := by
    simp [findFile?, habsolute, Place.isFile, hfile]
  have hlayer : fileLayer w path = .ok (.table (savedEntries s)) := by
    rw [fileLayer, hfind]
    simp only [Place.read_of_found hfile, parse_toToml (by decide) hs, Option.bind_some, unwrapTop?_saved]
  rw [loadFrom_of_fileLayer henv hlayer, saved_laidOver_standard, ofData_saved]

/-- What is not a file sets nothing. -/
theorem loadFrom_of_not_file (habsolute : path.isAbsolute = true) (henv : env.paths = [])
    (hfile : w.isFile path = false) : loadFrom w env path = .ok standard := by
  have hlayer : fileLayer w path = .ok (.table []) := by
    simp [fileLayer, findFile?, habsolute, hfile]
  rw [loadFrom_of_fileLayer henv hlayer, standardLayer_eq, Data.laidOver_table, Data.overEntries, ofData_saved]

/-- A file that is not a document is not loaded. -/
theorem loadFrom_of_parse_none (habsolute : path.isAbsolute = true) {text : String}
    (hfile : w.found? path = some (.file text)) (hparse : Toml.parse .first text = none) :
    loadFrom w env path = .error .notToml := by
  simp [loadFrom, fileLayer, findFile?, habsolute, Place.isFile, hfile, Place.read_of_found hfile, hparse]

/-- Settings that were saved under an absolute path are loaded as they were, without variables for settings. The depth
has to be an integer of 64 bits with sign. Of the device that forgets, the standard settings are loaded. What fails to
be saved changes no file. This rests on an assumption of `Place.write`, that a file takes the whole text once it is
open. -/
theorem saved_settings_load (w : Place) (s : Settings) {path : Path} (habsolute : path.isAbsolute = true)
    {env : Environment} (henv : env.paths = []) :
    (∀ fs, save w s path = (.ok (), fs) →
      ((Place.mk fs w.here).found? path ≠ some .nullDevice →
        (∀ d, s.output.maxDepth = some d → d.toNat < 0x8000000000000000) → loadFrom ⟨fs, w.here⟩ env path = .ok s) ∧
      ((Place.mk fs w.here).found? path = some .nullDevice → loadFrom ⟨fs, w.here⟩ env path = .ok standard)) ∧
    ∀ fault fs, save w s path = (.error fault, fs) → w.fs.AddsDirectories fs ∧
      ∀ e, w.found? path = some e → (Place.mk fs w.here).found? path = some e := by
  refine ⟨fun fs hsave => ⟨fun hnull hdepth => ?_, fun hnull => ?_⟩, fun fault fs hsave => ?_⟩
  · have hfile := (found?_of_save_ok hsave).resolve_right hnull
    exact loadFrom_saved habsolute henv hfile (fitsIn_first hdepth)
  · refine loadFrom_of_not_file habsolute henv ?_
    rw [Place.isFile, hnull]
  · have hadds := addsDirectories_of_save_error hsave
    exact ⟨hadds, fun e => Place.found?_of_addsDirectories hadds⟩

/-- Settings with quotes of both kinds, escapes, empty texts, repeated options and the greatest depth. -/
def unusualSettings : Settings :=
  ⟨7, true, "a\"b\x27c\\d\n\t", ⟨false, true, ["", "\x27\x27\x27\"\"\"", "\x7f"], [.incomplete, .incomplete]⟩,
    ⟨.jsonl, some 0x7fffffffffffffff⟩⟩

/-- The unusual settings are saved in a directory that is not there before. -/
theorem unusualSettings_load :
    let saved := save ⟨FileSystem.bare, []⟩ unusualSettings ⟨"/home/s.toml"⟩
    saved.1 = .ok () ∧ loadFrom ⟨saved.2, []⟩ [("HOME", "/")] ⟨"/home/s.toml"⟩ = .ok unusualSettings := by
  have hsave : (save ⟨FileSystem.bare, []⟩ unusualSettings ⟨"/home/s.toml"⟩).1 = .ok () := by decide +kernel
  have hfound : (Place.mk (save ⟨FileSystem.bare, []⟩ unusualSettings ⟨"/home/s.toml"⟩).2 []).found? ⟨"/home/s.toml"⟩ ≠
      some .nullDevice := by decide +kernel
  have hdepth : ∀ d, unusualSettings.output.maxDepth = some d → d.toNat < 0x8000000000000000 := by
    rintro d ⟨⟩
    decide
  have hpaths : Environment.paths [("HOME", "/")] = [] := by decide +kernel
  have habsolute : (Path.mk "/home/s.toml").isAbsolute = true := by decide
  obtain ⟨hload, -⟩ := saved_settings_load ⟨FileSystem.bare, []⟩ unusualSettings habsolute hpaths
  exact ⟨hsave, (hload _ (Prod.fst_eq_iff.mp hsave)).1 hfound hdepth⟩

/-- Settings with a depth beyond the integers of 64 bits with sign. -/
def deepSettings : Settings := { standard with output := ⟨.tree, some 0x8000000000000000⟩ }

/-- The device that forgets gives the standard settings in place of the saved ones, and too great a depth is saved but
not read. -/
theorem saved_settings_lost :
    (let saved := save ⟨FileSystem.bare, []⟩ { standard with debug := true } ⟨"/dev/null"⟩
    saved.1 = .ok () ∧ loadFrom ⟨saved.2, []⟩ [] ⟨"/dev/null"⟩ = .ok standard) ∧
    let saved := save ⟨FileSystem.bare, []⟩ deepSettings ⟨"/s.toml"⟩
    saved.1 = .ok () ∧ loadFrom ⟨saved.2, []⟩ [] ⟨"/s.toml"⟩ = .error .notToml := by
  have hparse : Toml.parse .first deepSettings.toToml = none := by
    rw [Toml.parse, ← String.length_toList, toList_toToml]
    decide +kernel
  have hsave : (save ⟨FileSystem.bare, []⟩ deepSettings ⟨"/s.toml"⟩).1 = .ok () := by decide +kernel
  have hfile := (found?_of_save_ok (Prod.fst_eq_iff.mp hsave)).resolve_right (by decide +kernel)
  exact ⟨by decide +kernel, hsave, loadFrom_of_parse_none (by decide) hfile hparse⟩

end Saving

end Settings

end SyntaxView
