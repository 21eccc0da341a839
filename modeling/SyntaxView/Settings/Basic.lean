import SyntaxView.Json.Shape
import SyntaxView.Options
import SyntaxView.OutputFormat
import SyntaxView.Toml.Writer
import SyntaxView.Tree.Json

/-!
# Settings

What a user can set, with the values that hold when nothing is set, and how settings are written.
-/

namespace SyntaxView

/-- How files are parsed. -/
structure ParsingSettings where
  /-- Leave out declarations that come from precompiled headers. -/
  excludePchDeclarations : Bool
  /-- Let the parser library print diagnostics. -/
  diagnostics : Bool
  /-- The arguments when a command line gives none. -/
  defaultArguments : List String
  options : List ParseOption
  deriving DecidableEq, Repr

/-- How trees are shown. -/
structure OutputSettings where
  format : OutputFormat
  /-- The deepest level to show. -/
  maxDepth : Option UInt64
  deriving DecidableEq, Repr

structure Settings where
  /-- The version of the layout of settings. -/
  version : UInt32
  debug : Bool
  logLevel : String
  parsing : ParsingSettings
  output : OutputSettings
  deriving DecidableEq, Repr

/-! ## Defaults -/

/-- The present version of the layout. -/
def Settings.currentVersion : UInt32 := 1

def Settings.usualLogLevel : String := "warn"

def ParsingSettings.usualArguments : List String := ["-x", "c++"]

/-- The parsing settings when nothing is set. -/
def ParsingSettings.standard : ParsingSettings := ⟨true, true, usualArguments, []⟩

/-- The output settings when nothing is set. -/
def OutputSettings.standard : OutputSettings := ⟨.tree, none⟩

/-- The settings when nothing is set. -/
def Settings.standard : Settings := ⟨currentVersion, false, usualLogLevel, .standard, .standard⟩

/-! ## What a parser library is told -/

/-- What becomes of declarations from precompiled headers. -/
inductive PchMode where
  | included
  | excluded
  deriving DecidableEq, Repr

def PchMode.code : PchMode → Int32
  | .included => 0
  | .excluded => 1

/-- Whether a parser library prints diagnostics. -/
inductive DiagnosticsMode where
  | disabled
  | enabled
  deriving DecidableEq, Repr

def DiagnosticsMode.code : DiagnosticsMode → Int32
  | .disabled => 0
  | .enabled => 1

def PchMode.ofExclude (exclude : Bool) : PchMode := if exclude then .excluded else .included

def DiagnosticsMode.ofEnabled (enabled : Bool) : DiagnosticsMode := if enabled then .enabled else .disabled

namespace ParsingSettings

def pchMode (p : ParsingSettings) : PchMode := .ofExclude p.excludePchDeclarations

def diagnosticsMode (p : ParsingSettings) : DiagnosticsMode := .ofEnabled p.diagnostics

def optionSet (p : ParsingSettings) : OptionSet := .ofList p.options

end ParsingSettings

/-! ## Writing -/

def ParsingSettings.toJson (p : ParsingSettings) : Json :=
  .obj [("exclude_pch_declarations", .bool p.excludePchDeclarations), ("diagnostics", .bool p.diagnostics),
    ("default_args", .texts p.defaultArguments), ("options", .arr (p.options.map Labelled.toJson))]

def OutputSettings.toJson (o : OutputSettings) : Json :=
  .obj (("format", Labelled.toJson o.format) :: Json.optional "max_depth" (o.maxDepth.map fun d => .ofNat d.toNat))

def Settings.toJson (s : Settings) : Json :=
  .obj [("version", .ofNat s.version.toNat), ("debug", .bool s.debug), ("log_level", .str s.logLevel),
    ("parsing", s.parsing.toJson), ("output", s.output.toJson)]

open Toml (writeEntry writeBool writeText writeArray)

def ParsingSettings.toToml (p : ParsingSettings) : String :=
  writeEntry "exclude_pch_declarations" (writeBool p.excludePchDeclarations) ++
    writeEntry "diagnostics" (writeBool p.diagnostics) ++
    writeEntry "default_args" (writeArray (p.defaultArguments.map writeText)) ++
    writeEntry "options" (writeArray (p.options.map fun o => writeText (Labelled.label o)))

def OutputSettings.toToml (o : OutputSettings) : String :=
  writeEntry "format" (writeText (Labelled.label o.format)) ++
    (match o.maxDepth with | some d => writeEntry "max_depth" (Nat.repr d.toNat) | none => "")

/-- The settings as a document: the plain ones first, then a table for each section. -/
def Settings.toToml (s : Settings) : String :=
  writeEntry "version" (Nat.repr s.version.toNat) ++ writeEntry "debug" (writeBool s.debug) ++
    writeEntry "log_level" (writeText s.logLevel) ++ "\n[parsing]\n" ++ s.parsing.toToml ++ "\n[output]\n" ++
    s.output.toToml

end SyntaxView
