/-!
# Exit codes

What a run of the program ends with. Code 2 is left to wrong usage of the command line.
-/

namespace SyntaxView

inductive ExitCode where
  | success
  | general
  | notFound
  | parse
  | io
  | config
  deriving DecidableEq, Repr

namespace ExitCode

def code : ExitCode → Nat
  | .success => 0
  | .general => 1
  | .notFound => 3
  | .parse => 4
  | .io => 5
  | .config => 6

def description : ExitCode → String
  | .success => "Success"
  | .general => "General error"
  | .notFound => "Not found"
  | .parse => "Parse error"
  | .io => "I/O error"
  | .config => "Configuration error"

def isSuccess (e : ExitCode) : Bool := e == .success

end ExitCode

end SyntaxView
