import SyntaxView.ExitCode
import SyntaxView.OsError

/-!
# Errors of output

What can go wrong while a rendering is written.
-/

namespace SyntaxView

inductive OutputError where
  /-- The file cannot be created. -/
  | create (path : String) (cause : IoError)
  | write (cause : IoError)
  deriving DecidableEq, Repr

namespace OutputError

def cause : OutputError → IoError
  | .create _ cause => cause
  | .write cause => cause

def message : OutputError → String
  | .create path cause =>
    s!"Failed to create output file: {path}\n{cause.message}\nSuggestion: Check write permissions for the directory"
  | .write cause =>
    s!"Failed to write output\n{cause.message}\nSuggestion: Check disk space and output file permissions"

def exitCode : OutputError → ExitCode
  | .create .. | .write _ => .io

end OutputError

end SyntaxView
