import SyntaxView.FileSystem
import SyntaxView.Settings.Decode
import SyntaxView.Settings.Environment
import SyntaxView.Settings.Wrapped
import SyntaxView.Toml.Reader

/-!
# Settings of a workspace

Settings come from three layers: the standard ones, a settings file, and the environment, each over the one before. The
file of a workspace lies in a settings directory in the current directory or in the nearest directory above it that has
one. A file given by a relative path is looked for in the current directory and then in each directory above it. A file
that is not there leaves its layer empty.

Loading reads a file by the first edition of TOML and puts wrapped values in their places; checking reads it by the
second edition as it stands. So a file may pass the check and not load, and the other way round.
-/

namespace SyntaxView.Settings

open FileSystem (Place)

def directoryName : String := ".clangview"

def fileName : String := "settings.toml"

/-- The settings file, seen from the directory that holds the settings directory. -/
def relativeFile : Path := (Path.mk directoryName).join ⟨fileName⟩

/-- The current directory and those above it, nearest first. -/
def directoriesUp (w : Place) : List Path := (Place.locationPath w.here).ancestors

/-! ## Finding the file -/

/-- The settings file of the workspace: in the nearest directory with a settings directory, which need not hold one. -/
def workspaceFile? (w : Place) : Option Path :=
  ((directoriesUp w).map fun d => d.join ⟨directoryName⟩).find? w.isDirectory |>.map fun d => d.join ⟨fileName⟩

/-- The settings file of the workspace, or else its relative path. -/
def workspaceFile (w : Place) : Path := (workspaceFile? w).getD relativeFile

/-- The file that a path names: an absolute one as it stands, a relative one from the nearest directory where it is a
file. -/
def findFile? (w : Place) (p : Path) : Option Path :=
  if p.isAbsolute then (if w.isFile p then some p else none)
  else ((directoriesUp w).map fun d => d.join p).find? w.isFile

/-! ## Loading -/

/-- The data of the standard settings. -/
def standardLayer : Data := .ofJson standard.toJson

/-- The data of a settings file; a missing one has none. -/
def fileLayer (w : Place) (p : Path) : Except SettingsError Data :=
  match findFile? w p with
  | none => .ok (.table [])
  | some file =>
    match w.read file with
    | .error _ => .error .notToml
    | .ok text =>
      match (Toml.parse .first text).bind Wrapped.unwrapTop? with
      | some entries => .ok (.table entries)
      | none => .error .notToml

/-- The settings of the three layers with the file at a path. -/
def loadFrom (w : Place) (env : Environment) (p : Path) : Except SettingsError Settings :=
  match fileLayer w p with
  | .error e => .error e
  | .ok file => ofData .layered (env.layer.laidOver (file.laidOver standardLayer))

/-- The settings of the workspace. -/
def load (w : Place) (env : Environment) : Except SettingsError Settings := loadFrom w env (workspaceFile w)

/-! ## Checking -/

/-- Why the workspace has no usable settings file. -/
inductive SetupFault where
  | missing
  | unreadable (cause : IoError)
  | corrupted (error : SettingsError)
  deriving DecidableEq, Repr

namespace SetupFault

def message : SetupFault → String
  | .missing => "No configuration file found"
  | .unreadable cause => "Cannot read configuration file: " ++ cause.message
  | .corrupted _ => "Configuration file is corrupted"

/-- The message with what is known of the cause and what may help. -/
def detail : SetupFault → String
  | .corrupted e => s!"Configuration file is corrupted: {e.message}\nRun 'clangview init --force' to regenerate."
  | f => f.message

end SetupFault

/-- The settings of one document alone. -/
def ofDocument (text : String) : Except SettingsError Settings :=
  match Toml.parse .second text with
  | some entries => ofData .document (.table entries)
  | none => .error .notToml

/-- Check that the workspace has a settings file that can be read. -/
def check (w : Place) : Except SetupFault Unit :=
  if !w.doesExist (workspaceFile w) then .error .missing
  else
    match w.read (workspaceFile w) with
    | .error cause => .error (.unreadable cause)
    | .ok text =>
      match ofDocument text with
      | .error e => .error (.corrupted e)
      | .ok _ => .ok ()

end SyntaxView.Settings
