import SyntaxView.Library.Cursor
import SyntaxView.ParsedFile.Basic
import SyntaxView.Trace

/-!
# Parsing with a parser library

A `ParserLibrary` is what a loaded library offers: whether it creates an index, and its answer to each request. Parsing
hands a request over, judges the answer by its code, and copies tree and diagnostics out of it.
-/

namespace SyntaxView.Library

structure RawDiagnostic where
  severity : Int32
  message : RawText
  location : SourceLocation

/-- A parsed file inside the library; a diagnostic may fail to be given. -/
structure RawUnit where
  cursors : List Cursor
  diagnostics : List (Option RawDiagnostic)

/-- The answer to a request. -/
structure Answer where
  code : Int32
  unit : Option RawUnit

structure ParserLibrary where
  /-- An index can be created. -/
  indexes : Bool
  answer : Request → Answer

/-- The diagnostic; its position counts only if it lies in a file. -/
def RawDiagnostic.toDiagnostic (d : RawDiagnostic) : Diagnostic :=
  let position := d.location.toPosition
  ⟨.ofCode d.severity, d.message.decode, if position.fileName = "" then none else some position⟩

def RawUnit.toUnit (fileName : String) (u : RawUnit) : ParsedFile :=
  ⟨fileName, treeOf u.cursors, u.diagnostics.filterMap fun d => d.map RawDiagnostic.toDiagnostic⟩

/-- The error that a code stands for, when there is no parsed file. -/
def errorOf (fileName : String) (code : Int32) : ParseError :=
  if code = 0 ∨ code = 1 then .failure fileName
  else if code = 2 then .crash fileName
  else if code = 3 then .invalidArguments fileName
  else if code = 4 then .treeRead fileName
  else .unknown code fileName

/-- An answer counts as parsed if its code is zero and a unit comes with it. -/
def Answer.outcome (a : Answer) (fileName : String) : Except ParseError RawUnit :=
  match a.unit with
  | some u => if a.code = 0 then .ok u else .error (errorOf fileName a.code)
  | none => .error (errorOf fileName a.code)

namespace ParserLibrary

/-- Parse a file. -/
def parse (library : ParserLibrary) (r : Request) : Traced (Except ParseError ParsedFile) := do
  match r.fault? with
  | some e => return .error e
  | none =>
    Traced.log .debug
      s!"Parsing '{r.fileName}' with {r.arguments.length} argument(s) and {r.unsaved.length} unsaved file(s)"
    Traced.emit (.parse r)
    let answer := library.answer r
    match answer.outcome r.fileName with
    | .error e =>
      Traced.log .warn s!"libclang error code {answer.code.toInt}: {e.message}"
      return .error e
    | .ok raw =>
      let unit := raw.toUnit r.fileName
      Traced.log .debug
        s!"Parsed '{r.fileName}': {unit.tree.count} node(s), {unit.diagnostics.length} diagnostic(s)"
      return .ok unit

end ParserLibrary

end SyntaxView.Library
