import SyntaxView.CommandLine.Arguments
import SyntaxView.Database.Basic
import SyntaxView.ParsedFile.Writer
import SyntaxView.Settings.Save
import SyntaxView.Source
import SyntaxView.Text.Debug

/-!
# Running a command line

A run starts from a `World`: a place in a file system, the environment, and a parser library that may or may not load.
It ends with an exit code, the events on the way, and the file system as it then is. Stages follow each other, and the
first that fails decides the exit code; output is opened only after everything is parsed. The standard output is assumed
to take all that is written to it.
-/

namespace SyntaxView.CommandLine

open FileSystem (Place)
open Library (IndexMode Loadable LoadState)

structure World where
  place : Place
  environment : Settings.Environment
  library : Loadable

/-- An error that ends a run. -/
inductive Failure where
  | parsing (error : ParseError)
  | database (error : DatabaseError)
  | output (error : OutputError)

namespace Failure

/-- The message, followed by the cause once more if there is one. -/
def message : Failure → String
  | .parsing e => e.message
  | .database e =>
    match e.cause? with
    | some cause => e.message ++ ": " ++ cause
    | none => e.message
  | .output e => e.message ++ ": " ++ e.cause.message

def exitCode : Failure → ExitCode
  | .parsing e => e.exitCode
  | .database e => e.exitCode
  | .output e => e.exitCode

end Failure

def out (text : String) : Traced Unit := .emit (.out text)

/-- Write a line to the standard error output. -/
def complain (line : String) : Traced Unit := .emit (.err (line ++ "\n"))

/-- What a command ends with: an exit code or an error, and the file system. -/
abbrev Ending := Except Failure ExitCode × FileSystem

/-! ## Settings -/

/-- The settings of a run. Those of a file that the command line names must load; else the standard ones stand in. -/
def settingsOf (w : World) (config : Option Path) : Traced (Option Settings) := do
  match config with
  | some path =>
    match Settings.loadFrom w.place w.environment path with
    | .ok s => return some s
    | .error e =>
      complain s!"Configuration error loading from {path.text}: {e.message}"
      return none
  | none =>
    match Settings.load w.place w.environment with
    | .ok s => return some s
    | .error e =>
      complain s!"Configuration error: {e.message}"
      return some Settings.standard

/-- The least grave level of messages to show. -/
def levelOf (s : Settings) (verbose : Bool) : Level :=
  if verbose || s.debug then .debug else (Level.ofText? s.logLevel).getD .warn

/-! ## Commands -/

def initCommand (w : World) (force : Bool) : Traced Ending := do
  match Settings.install w.place ⟨"."⟩ force with
  | (.ok file, fs) =>
    out s!"Created configuration file at: {file.text}\nEdit this file to customize your settings.\n"
    return (.ok .success, fs)
  | (.error e, fs) =>
    complain ("Error: " ++ e.message)
    return (.ok .config, fs)

def configCommand (w : World) (s : Settings) : Traced Ending := do
  match Settings.check w.place with
  | .ok () => pure ()
  | .error fault =>
    complain ("Warning: " ++ fault.detail)
    complain "Showing default configuration."
  out (s.toToml ++ "\n")
  return (.ok .success, w.place.fs)

/-- Log what the parser library reported. -/
def logDiagnostics (units : List ParsedFile) : Traced Unit :=
  Traced.each
    (fun u => do
      Traced.each (fun d => Traced.log .debug d.describe) u.diagnostics
      if u.hasErrors then Traced.log .warn s!"{u.fileName} parsed with errors")
    units

def limitOf (given : Option UInt64) (s : Settings) : Option Nat :=
  (given.orElse fun _ => s.output.maxDepth).map UInt64.toNat

/-- Open the file of the output. -/
def openOutput (w : Place) (path : Path) : Except OutputError (Place.Opened × FileSystem) :=
  match w.create path with
  | .ok opened => .ok opened
  | .error cause => .error (.create path.text cause)

/-- Open a file, write a text and flush it. -/
def writeText (w : Place) (path : Path) (text : String) : Except OutputError Unit × FileSystem :=
  match openOutput w path with
  | .error e => (.error e, w.fs)
  | .ok (.fullDevice, fs) => (if text = "" then .ok () else .error (.write (.os .noSpace)), fs)
  | .ok (.nullDevice, fs) => (.ok (), fs)
  | .ok (.file l, fs) => (.ok (), fs.set l (.file text))

/-- Write parsed files to the standard output. -/
def writeOut (format : OutputFormat) (limit : Option Nat) (units : List ParsedFile) : Traced Unit :=
  out (ParsedFile.textOf format limit units)

/-- Write parsed files to a file. -/
def writeFile (w : Place) (path : Path) (format : OutputFormat) (limit : Option Nat) (units : List ParsedFile) :
    Except OutputError Unit × FileSystem :=
  match openOutput w path with
  | .error e => (.error e, w.fs)
  | .ok (.fullDevice, fs) =>
    ((ParsedFile.writeAll format limit units (.fresh fun _ => some (.os .noSpace))).1, fs)
  | .ok (.nullDevice, fs) => ((ParsedFile.writeAll format limit units .reliable).1, fs)
  | .ok (.file l, fs) =>
    let (result, sink) := ParsedFile.writeAll format limit units .reliable
    (result, fs.set l (.file sink.written))

/-- Write parsed files where the command line says. -/
def writeUnits (w : Place) (output : Option Path) (format : OutputFormat) (limit : Option Nat)
    (units : List ParsedFile) : Traced (Except OutputError Unit × FileSystem) := do
  match output with
  | none =>
    writeOut format limit units
    return (.ok (), w.fs)
  | some path => return writeFile w path format limit units

def indexMode (p : ParsingSettings) : IndexMode := ⟨p.pchMode, p.diagnosticsMode⟩

/-- The parsing settings with what the command line says of diagnostics. -/
def parsingOf (s : Settings) (noDiagnostics : Bool) : ParsingSettings :=
  if noDiagnostics then { s.parsing with diagnostics := false } else s.parsing

/-- Show the one file that was asked for, once the library has answered. -/
def showAnswer (w : Place) (output : Option Path) (format : OutputFormat) (limit : Option Nat) :
    Except ParseError Source × LoadState → Traced Ending
  | (.error e, _) => return (.error (.parsing e), w.fs)
  | (.ok source, state) => do
    let _ ← state.release
    match source.partition with
    | (_, e :: _) => return (.error (.parsing e), w.fs)
    | (units, []) =>
      match ← writeUnits w output format limit units with
      | (.error e, fs) => return (.error (.output e), fs)
      | (.ok (), fs) =>
        logDiagnostics units
        return (.ok .success, fs)

/-- Parse one file and show it. -/
def parseCommand (w : World) (s : Settings) (file : Path) (format : Option OutputFormat) (maxDepth : Option UInt64)
    (output : Option Path) (noDiagnostics : Bool) (arguments : List String) : Traced Ending :=
  if w.place.doesExist file then do
    let parsing := parsingOf s noDiagnostics
    let arguments := if arguments.isEmpty then parsing.defaultArguments else arguments
    Traced.log .debug s!"Parsing {file.text} with args {Text.debugList arguments}"
    let request := Source.fileRequest file.text arguments parsing.optionSet
    let answer ← Source.ofRequests w.library (indexMode parsing) [request] .fresh
    showAnswer w.place output (format.getD s.output.format) (limitOf maxDepth s) answer
  else do
    complain s!"File not found: {file.text}"
    return (.ok .notFound, w.place.fs)

/-- Report the files of a database that could not be parsed. -/
def reportErrors (errors : List ParseError) : Traced Unit :=
  Traced.each
    (fun e => do
      Traced.log .warn e.message
      Traced.each (fun suggestion => complain ("  Suggestion: " ++ suggestion)) e.suggestions)
    errors

/-- Parse all files of a database and show those that parse. -/
def databaseCommand (w : World) (s : Settings) (file : Path) (format : Option OutputFormat) (maxDepth : Option UInt64) :
    Traced Ending := do
  match Database.ofFile w.place file with
  | .error e => return (.error (.database e), w.place.fs)
  | .ok commands =>
    Traced.log .info s!"Loaded {commands.length} compile command(s) from {file.text}"
    match ← Source.ofDatabase w.library (indexMode s.parsing) w.place commands s.parsing.optionSet .fresh with
    | (.error e, _) => return (.error (.parsing e), w.place.fs)
    | (.ok source, state) =>
      let _ ← state.release
      let (units, errors) := source.partition
      writeOut (format.getD s.output.format) (limitOf maxDepth s) units
      logDiagnostics units
      reportErrors errors
      complain s!"Parsed {units.length} translation unit(s), {errors.length} failed"
      return (.ok (if errors.isEmpty then .success else .parse), w.place.fs)

def runAction (w : World) (s : Settings) : Action → Traced Ending
  | .init force => initCommand w force
  | .config => configCommand w s
  | .parse file format maxDepth output noDiagnostics arguments =>
    parseCommand w s file format maxDepth output noDiagnostics arguments
  | .database file format maxDepth => databaseCommand w s file format maxDepth

/-! ## Runs -/

/-- How a run ends. -/
structure Outcome where
  exit : Nat
  fs : FileSystem
  /-- The least grave level of messages shown. -/
  level : Level
  events : List Event

/-- The exit code of what a command ends with. -/
def codeOf : Except Failure ExitCode → ExitCode
  | .ok code => code
  | .error failure => failure.exitCode

/-- Report how a command ended. -/
def reportEnd : Except Failure ExitCode → Traced Unit
  | .ok code => if !code.isSuccess then Traced.log .debug s!"Exiting with {code.description}" else return ()
  | .error failure => complain ("Error: " ++ failure.message)

/-- Run a well-formed command line. -/
def runInvocation (w : World) (i : Invocation) : Outcome :=
  match settingsOf w i.config with
  | ⟨none, events⟩ => ⟨ExitCode.config.code, w.place.fs, .warn, events⟩
  | ⟨some s, events⟩ =>
    let ending := runAction w s i.action
    ⟨(codeOf ending.value.1).code, ending.value.2, levelOf s i.verbose,
      events ++ ending.events ++ (reportEnd ending.value.1).events⟩

def versionText : String := "clangview 0.1.0\n"

/-- This stands for the description of usage that is generated from the commands and their options. Its wording is not
modelled. -/
def helpText : String := "Usage: clangview [OPTIONS] <COMMAND>\n\nCommands: parse, db, init, config, help\n"

/-- The exit code for wrong usage. -/
def usageCode : Nat := 2

/-- Run the words of a command line. -/
def run (w : World) (words : List String) : Outcome :=
  match read words with
  | .wrong => ⟨usageCode, w.place.fs, .warn, [.err helpText]⟩
  | .version => ⟨0, w.place.fs, .warn, [.out versionText]⟩
  | .help => ⟨0, w.place.fs, .warn, [.out helpText]⟩
  | .run i => runInvocation w i

namespace Outcome

/-- What stands on the standard output. -/
def stdout (o : Outcome) : String :=
  String.join (o.events.map fun
    | .out text => text
    | _ => "")

/-- What stands on the standard error output. -/
def stderr (o : Outcome) : String :=
  String.join (o.events.map fun
    | .err text => text
    | .log level message => if level.isShown o.level then level.name ++ " " ++ Text.harmless message ++ "\n" else ""
    | _ => "")

end Outcome

end SyntaxView.CommandLine
