import SyntaxView.Tree.Json

/-!
# Diagnostics

What a parser library reports about a file beside its tree: a severity, a message and, if it concerns a file, a
position.
-/

namespace SyntaxView

inductive Severity where
  | ignored
  | note
  | warning
  | error
  | fatal
  deriving DecidableEq, Repr

instance : Labelled Severity where
  all := [.ignored, .note, .warning, .error, .fatal]
  label
    | .ignored => "Ignored"
    | .note => "Note"
    | .warning => "Warning"
    | .error => "Error"
    | .fatal => "Fatal"

namespace Severity

/-- The severity of a number in the parser library. -/
def ofCode (n : Int32) : Severity :=
  if n = 1 then .note else if n = 2 then .warning else if n = 3 then .error else if n = 4 then .fatal else .ignored

def describe : Severity → String
  | .ignored => "ignored"
  | .note => "note"
  | .warning => "warning"
  | .error => "error"
  | .fatal => "fatal error"

/-- The file could not be understood as it stands. -/
def isError : Severity → Bool
  | .error | .fatal => true
  | .ignored | .note | .warning => false

end Severity

structure Diagnostic where
  severity : Severity
  message : String
  position : Option Position
  deriving DecidableEq, Repr

namespace Diagnostic

def isError (d : Diagnostic) : Bool := d.severity.isError

/-- One line in the manner of compilers. -/
def describe (d : Diagnostic) : String :=
  (match d.position with | some p => p.describe ++ ": " | none => "") ++ d.severity.describe ++ ": " ++ d.message

def toJson (d : Diagnostic) : Json :=
  .obj ([("severity", Labelled.toJson d.severity), ("message", .str d.message)] ++
    Json.optional "position" (d.position.map Position.toJson))

def ofJson? (v : Json) : Option Diagnostic := do
  let fields ← v.record? ["severity", "message", "position"]
  let severity ← Json.required? fields "severity" (Json.labelled? false)
  let message ← Json.required? fields "message" Json.text?
  let position ← Json.optional? fields "position" Position.ofJson?
  return ⟨severity, message, position⟩

end Diagnostic

end SyntaxView
