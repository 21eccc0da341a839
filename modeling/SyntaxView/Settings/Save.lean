import SyntaxView.Settings.Load

/-!
# Writing settings files

`Settings.save` writes settings to a path, and `Settings.install` a commented file with the standard ones into a
workspace. Both make the directories that are missing.
-/

namespace SyntaxView.Settings

open FileSystem (Place)

/-- Why a settings file was not written. -/
inductive SaveFault where
  /-- The path has no directory. -/
  | invalidPath
  /-- There is a file already. -/
  | present
  | io (cause : IoError)
  deriving DecidableEq, Repr

def SaveFault.message : SaveFault → String
  | .invalidPath => "Invalid path"
  | .present => "Configuration file already exists. Use --force to overwrite"
  | .io cause => cause.message

/-- Make the directory of a path and write a text there. -/
def writeBelow (w : Place) (directory path : Path) (text : String) : Except SaveFault Unit × FileSystem :=
  match w.makeDirectories directory with
  | (.error cause, fs) => (.error (.io cause), fs)
  | (.ok (), fs) =>
    match Place.write ⟨fs, w.here⟩ path text with
    | .error cause => (.error (.io cause), fs)
    | .ok fs => (.ok (), fs)

/-- Write settings to a path. -/
def save (w : Place) (s : Settings) (path : Path) : Except SaveFault Unit × FileSystem :=
  match path.parent with
  | none => (.error .invalidPath, w.fs)
  | some directory => writeBelow w directory path s.toToml

/-- A settings file with the standard settings and what can be set. -/
def template : String := "# clangview configuration

# Version of the configuration schema
version = 1

# Global debug mode
debug = false

# Maximum log level: error, warn, info, debug, trace
log_level = \"warn\"

[parsing]
# Skip declarations coming from precompiled headers
exclude_pch_declarations = true

# Let libclang print diagnostics while parsing
diagnostics = true

# Compiler arguments used when none are given after `--`
default_args = [\"-x\", \"c++\"]

# Translation-unit options. Available:
#   detailed_preprocessor_record, incomplete, precompiled_preamble,
#   cache_completion_results, for_serialization, chained_pch,
#   skip_function_bodies, include_brief_comments_in_code_completion
options = []

[output]
# tree, json or jsonl
format = \"tree\"

# Deepest AST level to print (unlimited when unset)
# max_depth = 4
"

/-- The settings file below a directory. -/
def fileBelow (root : Path) : Path := (root.join ⟨directoryName⟩).join ⟨fileName⟩

/-- Write the template below a directory; an existing file is replaced only by force. -/
def install (w : Place) (root : Path) (force : Bool) : Except SaveFault Path × FileSystem :=
  let file := fileBelow root
  if !force && w.doesExist file then (.error .present, w.fs)
  else
    match writeBelow w (file.parent.getD ⟨""⟩) file template with
    | (.error e, fs) => (.error e, fs)
    | (.ok (), fs) => (.ok file, fs)

end SyntaxView.Settings
