import SyntaxView.Command.Basic
import SyntaxView.Command.Words
import SyntaxView.Database.Reader
import SyntaxView.ExitCode

/-!
# Compilation databases

A database is a list of compile commands. It is loaded from a text whole or not at all: all entries are read before any
is converted (`Database.Entry.toCommand`), and the first entry that cannot be converted gives the error. An entry gives
its words as `arguments` or else as a `command` line to be split. Its directory is seen from the directory of the
database, its file from its own directory.
-/

namespace SyntaxView

inductive DatabaseError where
  | unreadable (path : Path) (cause : IoError)
  | malformed (path : Path) (fault : Json.Fault)
  | missingArguments (file : String)
  | unterminatedQuote (file : String)
  deriving DecidableEq, Repr

namespace DatabaseError

/-- A stable name of the kind of error. -/
def status : DatabaseError → String
  | .unreadable .. => "DATABASE_READ_ERROR"
  | .malformed .. => "DATABASE_MALFORMED"
  | .missingArguments _ => "DATABASE_MISSING_ARGUMENTS"
  | .unterminatedQuote _ => "DATABASE_UNTERMINATED_QUOTE"

def faultText : Json.Fault → String
  | .grammar => "the text is not JSON"
  | .shape => "a value has another type than expected"
  | .ended => "the text ends too early"

/-- The cause from below, if there is one. -/
def cause? : DatabaseError → Option String
  | .unreadable _ cause => some cause.message
  | .malformed _ fault => some (faultText fault)
  | _ => none

def message : DatabaseError → String
  | .unreadable path cause => s!"Failed to read compilation database '{path.text}': {cause.message}"
  | .malformed path fault => s!"Malformed compilation database '{path.text}': {faultText fault}"
  | .missingArguments file => s!"Compile command for '{file}' has neither 'arguments' nor 'command'"
  | .unterminatedQuote file => s!"Unterminated quote in command for '{file}'"

/-- What may help. -/
def suggestions : DatabaseError → List String
  | .unreadable .. =>
    ["Check that compile_commands.json exists", "Generate it with CMAKE_EXPORT_COMPILE_COMMANDS=ON or bear"]
  | .malformed .. => ["The database must be a JSON array of compile command objects"]
  | .missingArguments _ | .unterminatedQuote _ => ["Regenerate the compilation database with your build system"]

def exitCode : DatabaseError → ExitCode
  | .unreadable _ cause => if cause.isNotFound then .notFound else .io
  | _ => .parse

end DatabaseError

namespace Database

/-- The words of an entry: its arguments, or else its command line split. -/
def Entry.words (e : Entry) : Except DatabaseError (List String) :=
  match e.arguments, e.command with
  | some words, _ => .ok words
  | none, some line =>
    match Command.split line with
    | some words => .ok words
    | none => .error (.unterminatedQuote e.file)
  | none, none => .error (.missingArguments e.file)

/-- The directory of an entry, seen from the directory of the database. -/
def Entry.directoryFrom (e : Entry) (base : Path) : Path := if e.directory = "" then base else base.join ⟨e.directory⟩

def Entry.toCommand (base : Path) (e : Entry) : Except DatabaseError Command :=
  e.words.map fun words =>
    { directory := e.directoryFrom base
      file := (e.directoryFrom base).join ⟨e.file⟩
      arguments := words
      output := e.output }

/-- Convert all entries, or give the error of the first that cannot be converted. -/
def toCommands (base : Path) : List Entry → Except DatabaseError (List Command)
  | [] => .ok []
  | e :: rest =>
    match e.toCommand base with
    | .error err => .error err
    | .ok c => (toCommands base rest).map (c :: ·)

/-- The commands of a database text; `path` is the place it came from. -/
def ofTextAt (path : Path) (text : String) (base : Path) : Except DatabaseError (List Command) :=
  match readEntries text with
  | .error fault => .error (.malformed path fault)
  | .ok entries => toCommands base entries

/-- The commands of a database text whose directory is `base`. -/
def ofText (text : String) (base : Path) : Except DatabaseError (List Command) := ofTextAt ⟨""⟩ text base

/-- The commands of a database file. Its directory is the parent of its path, as the path is spelled. -/
def ofFile (w : FileSystem.Place) (path : Path) : Except DatabaseError (List Command) :=
  match w.read path with
  | .error cause => .error (.unreadable path cause)
  | .ok text => ofTextAt path text (path.parent.getD ⟨"."⟩)

end Database

end SyntaxView
