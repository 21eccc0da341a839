import SyntaxView.Proofs.Settings.Defaults
import SyntaxView.Proofs.Settings.Nearest
import SyntaxView.Proofs.Toml.Editions

/-!
# Checked settings and loaded settings

Checking reads the settings file alone; loading lays it over the standard settings. Apart from the two readers of TOML,
both come to the same settings or the same error (`load_agrees_with_check`). What the readers differ in is:

- their editions of TOML, where the text is not of the common one (`Toml.parse_alike`);
- wrapped values, which only loading puts in their places (`unwrapTop?_of_isBare`);
- names that are the only key of a table with nothing behind it, which only checking takes (`ofData_layered`).
-/

namespace SyntaxView

open FileSystem (Place)
open FileSystem.Place (IsName)

/-! ## Wrapped values -/

namespace Settings.Wrapped

mutual
/-- No table in the data has a reserved key. -/
def isBare : Data → Bool
  | .list items => itemsBare items
  | .table entries => entriesBare entries
  | _ => true
termination_by structural v => v

def itemsBare : List Data → Bool
  | [] => true
  | v :: rest => isBare v && itemsBare rest
termination_by structural l => l

def entriesBare : List (String × Data) → Bool
  | [] => true
  | (key, v) :: rest => key != valueKey && key != numberKey && isBare v && entriesBare rest
termination_by structural l => l
end

theorem lookup_valueKey : ∀ {entries : List (String × Data)}, entriesBare entries = true →
    entries.lookup valueKey = none
  | [], _ => rfl
  | (key, v) :: rest, h => by
    simp only [entriesBare, Bool.and_eq_true, bne_iff_ne] at h
    rw [Table.lookup_cons, if_neg h.1.1.1.symm, lookup_valueKey h.2]

mutual
/-- Where no key is reserved, nothing is wrapped. -/
theorem unwrap?_of_isBare : ∀ {v : Data}, isBare v = true → unwrap? v = some v
  | .list items, h => by
    rw [isBare] at h
    rw [unwrap?, unwrapItems?_of_itemsBare h, Option.map_some]
  | .table entries, h => by
    rw [isBare] at h
    rw [unwrap?, unwrapEntries?_of_entriesBare h, Option.map_some, ofEntries, lookup_valueKey h, Option.getD_none]
  | .nothing, _ | .bool _, _ | .int _, _ | .float, _ | .text _, _ | .char _, _ => rfl

theorem unwrapItems?_of_itemsBare : ∀ {items : List Data}, itemsBare items = true → unwrapItems? items = some items
  | [], _ => rfl
  | v :: rest, h => by
    simp only [itemsBare, Bool.and_eq_true] at h
    rw [unwrapItems?, unwrap?_of_isBare h.1, unwrapItems?_of_itemsBare h.2]

theorem unwrapEntries?_of_entriesBare : ∀ {entries : List (String × Data)}, entriesBare entries = true →
    unwrapEntries? entries = some entries
  | [], _ => rfl
  | (key, v) :: rest, h => by
    simp only [entriesBare, Bool.and_eq_true, bne_iff_ne] at h
    obtain ⟨⟨⟨-, hnumber⟩, hv⟩, hrest⟩ := h
    simp only [unwrapEntries?, unwrap?_of_isBare hv, unwrapEntries?_of_entriesBare hrest, if_neg hnumber]
end

theorem unwrapTop?_of_isBare : ∀ {entries : List (String × Data)}, (∀ e ∈ entries, isBare e.2 = true) →
    unwrapTop? entries = some entries
  | [], _ => rfl
  | (key, v) :: rest, h => by
    obtain ⟨hv, hrest⟩ := List.forall_mem_cons.1 h
    rw [unwrapTop?, unwrap?_of_isBare hv, unwrapTop?_of_isBare hrest]

end Settings.Wrapped

/-! ## Names -/

/-- The data is a name as the only key of a table with nothing behind it. -/
def Data.isNameTable (α : Type) [Labelled α] : Data → Bool
  | .table [(key, behind)] => (Labelled.ofLabel? key : Option α).isSome && Dialect.document.behindName behind
  | _ => false

theorem asLabelled_layered {α : Type} [Labelled α] {v : Data} (h : v.isNameTable α = false) :
    (v.asLabelled .layered : Except SettingsError α) = v.asLabelled .document := by
  unfold Data.asLabelled
  split
  · rfl
  · rename_i key behind rest
    split
    · rename_i a ha
      cases rest with
      | nil =>
        have hbehind : Dialect.document.behindName behind = false := by
          simpa [Data.isNameTable, ha] using h
        rw [hbehind]
        rfl
      | cons e rest => rfl
    · rfl
  · rfl

theorem readItems_congr {α : Type} {read read' : Data → Except SettingsError α} {items : List Data}
    (h : ∀ v ∈ items, read v = read' v) (i : Nat) : Data.readItems read i items = Data.readItems read' i items := by
  induction items generalizing i with
  | nil => rfl
  | cons v items ih =>
    obtain ⟨hv, hitems⟩ := List.forall_mem_cons.1 h
    rw [Data.readItems, Data.readItems, hv, ih hitems]

section Sections

variable {σ : Type} {assign assign' : σ → String → Data → Except SettingsError σ}

theorem assignAll_congr {values : List (String × String × Data)}
    (h : ∀ e ∈ values, ∀ s, assign s e.2.1 e.2.2 = assign' s e.2.1 e.2.2) (s : σ) :
    Data.assignAll assign s values = Data.assignAll assign' s values := by
  induction values generalizing s with
  | nil => rfl
  | cons e values ih =>
    obtain ⟨he, hvalues⟩ := List.forall_mem_cons.1 h
    obtain ⟨key, name, v⟩ := e
    have he : assign s name v = assign' s name v := he s
    rw [Data.assignAll, Data.assignAll, he]
    split
    · rfl
    · exact ih hvalues _

/-- What is assigned in a section is what the section says of the setting. -/
theorem settingOf_of_mem {d : Dialect} {names : List String} (hnames : names.Nodup) {v : Data} (hv : v.Proper)
    {values : List (String × String × Data)} (hvalues : v.sectionValues d names = .ok values)
    {e : String × String × Data} (he : e ∈ values) : v.settingOf names e.2.1 = some e.2.2 := by
  unfold Data.sectionValues at hvalues
  split at hvalues
  · cases hvalues
    obtain ⟨entry, hentry, rfl⟩ := List.mem_map.1 he
    cases hv with
    | table order each => exact Table.lookup_of_mem order.nodup hentry
  · rename_i items
    split at hvalues
    · cases hvalues
    · cases hvalues
      obtain ⟨⟨⟨name, x⟩, i⟩, hentry, rfl⟩ := List.mem_map.1 he
      have hmem : (name, x) ∈ names.zip items := List.fst_mem_of_mem_zipIdx hentry
      have hname : name ∈ names := (List.of_mem_zip hmem).1
      rw [Data.settingOf, ← lookup_zip hname]
      exact Table.lookup_of_mem (hnames.sublist (keys_zip_sublist names items)) hmem
  · cases hvalues

/-- A section is read alike in two dialects that take the same number of items, if each of its settings is. -/
theorem asSection_congr {d d' : Dialect} (hsurplus : d.surplus = d'.surplus) {names : List String} (hnames : names.Nodup)
    {v : Data} (hv : v.Proper)
    (h : ∀ name x, v.settingOf names name = some x → ∀ s, assign s name x = assign' s name x) (start : σ) :
    v.asSection d names assign start = v.asSection d' names assign' start := by
  have hvalues : v.sectionValues d names = v.sectionValues d' names := by
    unfold Data.sectionValues
    rw [hsurplus]
  unfold Data.asSection
  rw [← hvalues]
  split
  · rfl
  · rename_i values heq
    exact assignAll_congr (fun e he => h _ _ (settingOf_of_mem hnames hv heq he)) start

end Sections

namespace Settings

/-- What a document says of a setting in a section. -/
def saidIn (g : Group) (key : String) (entries : List (String × Data)) : Option Data :=
  (entries.lookup g.key).bind (Data.settingOf g.names key)

/-- No option of a document is a name as the only key of a table, nor is the format. -/
def namesPlain (entries : List (String × Data)) : Bool :=
  (match saidIn .parsing "options" entries with
    | some (.list items) => items.all (!·.isNameTable ParseOption)
    | _ => true) &&
  match saidIn .output "format" entries with
  | some v => !v.isNameTable OutputFormat
  | none => true

theorem parsing_assign_layered {name : String} {v : Data}
    (h : ∀ items, name = "options" → v = .list items → ∀ x ∈ items, x.isNameTable ParseOption = false)
    (p : ParsingSettings) : ParsingSettings.assign .layered p name v = ParsingSettings.assign .document p name v := by
  unfold ParsingSettings.assign
  split
  case h_4 =>
    cases v with
    | list items =>
      have hitems := readItems_congr (fun x hx => asLabelled_layered (h items rfl rfl x hx)) 0
      rw [Data.asList, Data.asList, hitems]
    | _ => rfl
  all_goals rfl

theorem output_assign_layered {name : String} {v : Data}
    (h : name = "format" → v.isNameTable OutputFormat = false) (o : OutputSettings) :
    OutputSettings.assign .layered o name v = OutputSettings.assign .document o name v := by
  unfold OutputSettings.assign
  split
  case h_1 => rw [asLabelled_layered (h rfl)]
  all_goals rfl

theorem parsing_layered {v : Data} (hv : v.Proper)
    (h : ∀ items, v.settingOf ParsingSettings.names "options" = some (.list items) →
      ∀ x ∈ items, x.isNameTable ParseOption = false) (start : ParsingSettings) :
    v.asSection .layered ParsingSettings.names (ParsingSettings.assign .layered) start =
      v.asSection .document ParsingSettings.names (ParsingSettings.assign .document) start := by
  refine asSection_congr rfl (by decide) hv (fun name x hx => parsing_assign_layered ?_) start
  rintro items rfl rfl
  exact h items hx

theorem output_layered {v : Data} (hv : v.Proper)
    (h : ∀ x, v.settingOf OutputSettings.names "format" = some x → x.isNameTable OutputFormat = false)
    (start : OutputSettings) :
    v.asSection .layered OutputSettings.names (OutputSettings.assign .layered) start =
      v.asSection .document OutputSettings.names (OutputSettings.assign .document) start := by
  refine asSection_congr rfl (by decide) hv (fun name x hx => output_assign_layered ?_) start
  rintro rfl
  exact h x hx

/-- Without names in tables, data is read as data of one document and as data of several layers alike. -/
theorem ofData_layered {entries : List (String × Data)} (hproper : Data.Proper (.table entries))
    (hnames : namesPlain entries = true) :
    ofData .layered (.table entries) = ofData .document (.table entries) := by
  simp only [namesPlain, saidIn, Bool.and_eq_true] at hnames
  rw [ofData_eq, ofData_eq]
  refine asSection_congr rfl (by decide) hproper (fun name v hv s => ?_) standard
  have hv : entries.lookup name = some v := hv
  have hvproper : v.Proper := by
    cases hproper with
    | table order each => exact each _ (Table.mem_of_lookup hv)
  unfold assign
  split
  case h_4 =>
    rw [parsing_layered hvproper]
    intro items hitems
    have hoptions := hnames.1
    rw [show entries.lookup Group.parsing.key = some v from hv, Option.bind_some,
      show v.settingOf Group.parsing.names "options" = _ from hitems] at hoptions
    simpa using hoptions
  case h_5 =>
    rw [output_layered hvproper]
    intro x hx
    have hformat := hnames.2
    rw [show entries.lookup Group.output.key = some v from hv, Option.bind_some,
      show v.settingOf Group.output.names "format" = _ from hx] at hformat
    simpa using hformat
  all_goals rfl

/-! ## Checking and loading -/

/-- No value of a document is wrapped, and no name is the only key of a table. -/
def isPlainDocument (entries : List (String × Data)) : Bool :=
  entries.all (fun e => Wrapped.isBare e.2) && namesPlain entries

/-- The settings of a text alone, in the way settings are loaded. -/
def ofLoadedText (text : String) : Except SettingsError Settings :=
  match (Toml.parse .first text).bind Wrapped.unwrapTop? with
  | some entries => ofData .layered (.table entries)
  | none => .error .notToml

/-- Without variables for settings, the settings of a text are those of the text alone. -/
theorem ofText_alone {env : Environment} (henv : env.paths = []) (text : String) :
    ofText env (some text) = ofLoadedText text := by
  have hempty (t : List (String × Data)) : (Data.table []).laidOver (.table t) = .table t := by
    rw [Data.laidOver_table, Data.overEntries]
  simp only [ofText, ofLoadedText]
  cases hentries : (Toml.parse .first text).bind Wrapped.unwrapTop? with
  | none => rfl
  | some entries =>
    simp only [← ofData_laidOver_standard (Wrapped.document_proper hentries), layer_of_paths_nil henv,
      standardLayer_eq, Data.laidOver_table entries, hempty]

/-- Without variables for settings and without a text, the settings are the standard ones. -/
theorem ofText_none_alone {env : Environment} (henv : env.paths = []) : ofText env none = .ok standard := by
  rw [ofText, layer_of_paths_nil henv, empty_laidOver_standard, standardLayer_eq, ofData_saved]

/-- Of a plain document that both editions read alike, the same settings are loaded as checked. -/
theorem ofLoadedText_eq {text : String} (halike : Toml.parse .first text = Toml.parse .second text)
    (hplain : (Toml.parse .second text).all isPlainDocument = true) : ofLoadedText text = ofDocument text := by
  unfold ofLoadedText ofDocument
  rw [halike]
  cases hentries : Toml.parse .second text with
  | none => rfl
  | some entries =>
    simp only [hentries, Option.all_some, isPlainDocument, Bool.and_eq_true, List.all_eq_true] at hplain
    rw [Option.bind_some, Wrapped.unwrapTop?_of_isBare hplain.1]
    exact ofData_layered (Toml.parse_proper hentries) hplain.2

/-- A settings file that can be read is checked by its text. -/
theorem check_of_read {w : Place} {file : Path} (hfile : workspaceFile? w = some file) {text : String}
    (hread : w.read file = .ok text) :
    check w = match ofDocument text with
      | .error e => .error (.corrupted e)
      | .ok _ => .ok () := by
  have hfile' : workspaceFile w = file := by rw [workspaceFile, hfile, Option.getD_some]
  have hexists : w.doesExist file = true := by
    unfold Place.read at hread
    unfold Place.doesExist Place.found?
    cases hfind : w.find file with
    | error cause =>
      rw [hfind] at hread
      cases hread
    | ok r => rfl
  simp only [check, hfile', hexists, hread]
  rfl

/-- A settings file that can be read is loaded by its text. -/
theorem load_of_read {w : Place} (hw : ∀ n ∈ w.here, IsName n) {env : Environment} (henv : env.paths = [])
    {d : Location} (hnearest : nearest? w = some d) {text : String} (hread : w.read (settingsFileIn d) = .ok text) :
    load w env = ofLoadedText text := by
  have htext : textAt w (settingsFileIn d) = some text := by rw [textAt, hread]; rfl
  rw [load_eq hw, hnearest, Option.bind_some, htext, ofText_alone henv]

/-- Settings that are loaded without variables are those of the settings file alone. They are the ones that are checked,
and a file that is found corrupted is not loaded, if the file is a plain document that both editions of TOML read alike;
and these read alike whatever belongs to both. -/
theorem load_agrees_with_check {w : Place} (hw : ∀ n ∈ w.here, IsName n) {env : Environment} (henv : env.paths = [])
    {file : Path} (hfile : workspaceFile? w = some file) {text : String} (hread : w.read file = .ok text) :
    load w env = ofLoadedText text ∧
      ((Toml.parse .common text).isSome = true → Toml.parse .first text = Toml.parse .second text) ∧
      (Toml.parse .first text = Toml.parse .second text → (Toml.parse .second text).all isPlainDocument = true →
        load w env = ofDocument text ∧ (check w = .ok () ↔ ∃ s, load w env = .ok s) ∧
          ∀ e, check w = .error (.corrupted e) → load w env = .error e) := by
  have habsolute : file.isAbsolute = true := by
    rw [workspaceFile?_eq hw, Option.map_eq_some_iff] at hfile
    obtain ⟨d, -, rfl⟩ := hfile
    exact Path.isAbsolute_join (Path.isAbsolute_join (Place.isAbsolute_locationPath d) _) _
  have hload : load w env = ofLoadedText text := by
    have htext : textAt w file = some text := by rw [textAt, hread]; rfl
    rw [load, workspaceFile, hfile, Option.getD_some, loadFrom_absolute habsolute, htext, ofText_alone henv]
  refine ⟨hload, Toml.parse_alike, fun halike hplain => ?_⟩
  have hsame : load w env = ofDocument text := hload.trans (ofLoadedText_eq halike hplain)
  rw [check_of_read hfile hread, hsame]
  cases ofDocument text with
  | error e => exact ⟨rfl, by simp, fun e' he => by cases he; rfl⟩
  | ok s => exact ⟨rfl, ⟨fun _ => ⟨s, rfl⟩, fun _ => rfl⟩, by simp⟩

/-- A workspace with this text in its settings file. -/
def settingsWorld (text : String) : Place where
  fs := (FileSystem.bare.set [".clangview"] .directory).set [".clangview", "settings.toml"] (.file text)
  here := []

/-- An unknown setting, a section that is a list, and a section with one setting. -/
def partialDocument : String := "unknown = 1.5\nparsing = [false]\n[output]\nmax_depth = 3\n"

/-- The document passes the check, and what it leaves open is standard. -/
theorem partialDocument_agrees :
    check (settingsWorld partialDocument) = .ok () ∧
      load (settingsWorld partialDocument) [("HOME", "/")] = ofDocument partialDocument ∧
      ofDocument partialDocument = .ok { standard with
        parsing := { ParsingSettings.standard with excludePchDeclarations := false }, output := ⟨.tree, some 3⟩ } := by
  have hnames : ∀ n ∈ (settingsWorld partialDocument).here, IsName n := nofun
  have hpaths : Environment.paths [("HOME", "/")] = [] := by decide +kernel
  have hfile : workspaceFile? (settingsWorld partialDocument) = some ⟨"/.clangview/settings.toml"⟩ := by decide +kernel
  have hread : (settingsWorld partialDocument).read ⟨"/.clangview/settings.toml"⟩ = .ok partialDocument := by
    decide +kernel
  have hcommon : (Toml.parse .common partialDocument).isSome = true := by decide +kernel
  have hplain : (Toml.parse .second partialDocument).all isPlainDocument = true := by decide +kernel
  have hsettings : ofDocument partialDocument = .ok { standard with
      parsing := { ParsingSettings.standard with excludePchDeclarations := false }, output := ⟨.tree, some 3⟩ } := by
    decide +kernel
  obtain ⟨-, halike, hagree⟩ := load_agrees_with_check hnames hpaths hfile hread
  obtain ⟨hload, hcheck, -⟩ := hagree (halike hcommon) hplain
  exact ⟨hcheck.2 ⟨_, hload.trans hsettings⟩, hload, hsettings⟩

/-- A time without seconds. -/
def briefTimeDocument : String := "x = 1979-05-27T07:32\n"

/-- A name as the only key of an empty table. -/
def nameTableDocument : String := "[output.format.json]\n"

/-- A wrapped value. -/
def wrappedDocument : String := "debug = \x7b ___figment_value_value = true \x7d\n"

/-- A float below the range of double precision. -/
def lowFloatDocument : String := "x = -1e400\n"

/-- Each of the differences shows: two of the documents only pass the check, and two are only loaded. -/
theorem check_and_load_differ :
    (check (settingsWorld briefTimeDocument) = .ok () ∧
        load (settingsWorld briefTimeDocument) [] = .error .notToml) ∧
      (check (settingsWorld nameTableDocument) = .ok () ∧
        load (settingsWorld nameTableDocument) [] = .error (.invalidType ["output", "format", "json"])) ∧
      (check (settingsWorld wrappedDocument) = .error (.corrupted (.invalidType ["debug"])) ∧
        load (settingsWorld wrappedDocument) [] = .ok { standard with debug := true }) ∧
      (check (settingsWorld lowFloatDocument) = .error (.corrupted .notToml) ∧
        load (settingsWorld lowFloatDocument) [] = .ok standard) := by
  decide +kernel

end Settings

end SyntaxView
