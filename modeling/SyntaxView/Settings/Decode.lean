import SyntaxView.Data
import SyntaxView.Settings.Basic

/-!
# Settings out of data

Data is read into settings entry by entry, in the order of the keys; unknown keys do not matter. Each setting has a
value of its own that stands in when its key is missing (`Settings.unset`), and a section that is missing stands as a
whole for its standard settings. A section may also be a list of its values in order. The first failure is reported with
the keys that lead to it; an item of a list counts as the key of its number.

Three sources of data differ in two points, which a `Dialect` states.
-/

namespace SyntaxView

/-- Why data cannot be read as settings, and where. -/
inductive SettingsError where
  /-- The settings file is not TOML, or a value is wrapped wrongly. -/
  | notToml
  | invalidType (path : List String)
  /-- An integer out of range. -/
  | invalidValue (path : List String)
  | unknownVariant (path : List String)
  deriving DecidableEq, Repr

namespace SettingsError

def path : SettingsError → List String
  | .notToml => []
  | .invalidType path | .invalidValue path | .unknownVariant path => path

/-- The error one key further down. -/
def under (key : String) : SettingsError → SettingsError
  | .notToml => .notToml
  | .invalidType path => .invalidType (key :: path)
  | .invalidValue path => .invalidValue (key :: path)
  | .unknownVariant path => .unknownVariant (key :: path)

def reason : SettingsError → String
  | .notToml => "the file is not TOML"
  | .invalidType _ => "the value has a wrong type"
  | .invalidValue _ => "the value is out of range"
  | .unknownVariant _ => "the name is not known"

def message (e : SettingsError) : String :=
  if e.path.isEmpty then e.reason else e.reason ++ " for key '" ++ ".".intercalate e.path ++ "'"

end SettingsError

/-- What sources of data differ in. -/
structure Dialect where
  /-- A list may have more items than a section has settings; the surplus does not matter. -/
  surplus : Bool
  /-- A name may be the only key of a table with this data behind it. -/
  behindName : Data → Bool

namespace Dialect

/-- Data of several layers. -/
def layered : Dialect := ⟨true, fun _ => false⟩

/-- Data of one TOML document. -/
def document : Dialect :=
  ⟨true, fun
    | .list items => items.isEmpty
    | .table entries => entries.isEmpty
    | _ => false⟩

/-- Data of a JSON value. -/
def json : Dialect :=
  ⟨false, fun
    | .nothing => true
    | _ => false⟩

end Dialect

namespace Data

/-! ## Single values -/

def asBool : Data → Except SettingsError Bool
  | .bool b => .ok b
  | _ => .error (.invalidType [])

/-- A text; a single character is one. -/
def asText : Data → Except SettingsError String
  | .text s => .ok s
  | .char c => .ok c.toString
  | _ => .error (.invalidType [])

/-- An integer from zero on and below the bound. -/
def asNat (bound : Nat) : Data → Except SettingsError Nat
  | .int n => if 0 ≤ n ∧ n < bound then .ok n.toNat else .error (.invalidValue [])
  | _ => .error (.invalidType [])

/-- A value of a finite type, by its label. -/
def asLabelled {α : Type} [Labelled α] (d : Dialect) : Data → Except SettingsError α
  | .text s =>
    match Labelled.ofLabel? s with
    | some a => .ok a
    | none => .error (.unknownVariant [])
  | .table ((key, behind) :: rest) =>
    match Labelled.ofLabel? key with
    | some a => if rest.isEmpty && d.behindName behind then .ok a else .error (.invalidType [key])
    | none => .error (.unknownVariant [key])
  | _ => .error (.invalidType [])

/-- Read the items of a list, the first of them with number `i`. -/
def readItems {α : Type} (read : Data → Except SettingsError α) : Nat → List Data → Except SettingsError (List α)
  | _, [] => .ok []
  | i, v :: rest =>
    match read v with
    | .error e => .error (e.under (Nat.repr i))
    | .ok a => (readItems read (i + 1) rest).map (a :: ·)

def asList {α : Type} (read : Data → Except SettingsError α) : Data → Except SettingsError (List α)
  | .list items => readItems read 0 items
  | _ => .error (.invalidType [])

def asOptional {α : Type} (read : Data → Except SettingsError α) : Data → Except SettingsError (Option α)
  | .nothing => .ok none
  | v => (read v).map some

/-! ## Sections -/

/-- Assign values one after the other; each comes with the key under which its errors are reported and the name of the
setting. -/
def assignAll {σ : Type} (assign : σ → String → Data → Except SettingsError σ) :
    σ → List (String × String × Data) → Except SettingsError σ
  | s, [] => .ok s
  | s, (key, name, v) :: rest =>
    match assign s name v with
    | .error e => .error (e.under key)
    | .ok s => assignAll assign s rest

/-- The values of a section: the entries of a table, or the items of a list under the names in order. -/
def sectionValues (d : Dialect) (names : List String) : Data → Except SettingsError (List (String × String × Data))
  | .table entries => .ok (entries.map fun e => (e.1, e.1, e.2))
  | .list items =>
    if !d.surplus && names.length < items.length then .error (.invalidType [])
    else .ok ((names.zip items).zipIdx.map fun e => (Nat.repr e.2, e.1.1, e.1.2))
  | _ => .error (.invalidType [])

/-- Read a section over the given one. -/
def asSection {σ : Type} (d : Dialect) (names : List String) (assign : σ → String → Data → Except SettingsError σ)
    (start : σ) (v : Data) : Except SettingsError σ :=
  match v.sectionValues d names with
  | .error e => .error e
  | .ok values => assignAll assign start values

end Data

/-! ## Settings -/

namespace ParsingSettings

def names : List String := ["exclude_pch_declarations", "diagnostics", "default_args", "options"]

/-- What stands in for each parsing setting that is missing. -/
def unset : ParsingSettings where
  excludePchDeclarations := true
  diagnostics := true
  defaultArguments := usualArguments
  options := []

/-- Assign one setting; an unknown name does not matter. -/
def assign (d : Dialect) (p : ParsingSettings) (name : String) (v : Data) : Except SettingsError ParsingSettings :=
  match name with
  | "exclude_pch_declarations" => v.asBool.map fun b => { p with excludePchDeclarations := b }
  | "diagnostics" => v.asBool.map fun b => { p with diagnostics := b }
  | "default_args" => (v.asList Data.asText).map fun l => { p with defaultArguments := l }
  | "options" => (v.asList (Data.asLabelled d)).map fun l => { p with options := l }
  | _ => .ok p

end ParsingSettings

namespace OutputSettings

def names : List String := ["format", "max_depth"]

/-- What stands in for each output setting that is missing. -/
def unset : OutputSettings where
  format := default
  maxDepth := none

def assign (d : Dialect) (o : OutputSettings) (name : String) (v : Data) : Except SettingsError OutputSettings :=
  match name with
  | "format" => (v.asLabelled d).map fun f => { o with format := f }
  | "max_depth" => (v.asOptional (Data.asNat 0x10000000000000000)).map fun n => { o with maxDepth := n.map UInt64.ofNat }
  | _ => .ok o

end OutputSettings

namespace Settings

def names : List String := ["version", "debug", "log_level", "parsing", "output"]

/-- What stands in for each setting or section that is missing. -/
def unset : Settings where
  version := currentVersion
  debug := false
  logLevel := usualLogLevel
  parsing := .standard
  output := .standard

def assign (d : Dialect) (s : Settings) (name : String) (v : Data) : Except SettingsError Settings :=
  match name with
  | "version" => (v.asNat 0x100000000).map fun n => { s with version := UInt32.ofNat n }
  | "debug" => v.asBool.map fun b => { s with debug := b }
  | "log_level" => v.asText.map fun t => { s with logLevel := t }
  | "parsing" =>
    (v.asSection d ParsingSettings.names (ParsingSettings.assign d) .unset).map fun p => { s with parsing := p }
  | "output" =>
    (v.asSection d OutputSettings.names (OutputSettings.assign d) .unset).map fun o => { s with output := o }
  | _ => .ok s

/-- The settings that data describes. -/
def ofData (d : Dialect) (v : Data) : Except SettingsError Settings := v.asSection d names (assign d) unset

/-- The settings of a JSON value. -/
def ofJson (v : Json) : Except SettingsError Settings := ofData .json (.ofJson v)

end Settings

end SyntaxView
