import SyntaxView.Library.Basic
import SyntaxView.Settings.Basic

/-!
# Loading a parser library

The library is loaded when its first user comes, unless somebody else has loaded it, and unloaded when the last one
goes, if it was loaded here. An index is a user: creating one takes the library, and gives it back if the library
refuses.
-/

namespace SyntaxView.Library

/-- The parser library of a process, which may refuse to be loaded. Somebody else may have loaded it before. -/
structure Loadable where
  library : ParserLibrary
  /-- Why it cannot be loaded, if so. -/
  refusal : Option String

namespace Loadable

/-- A library that can be loaded. -/
abbrev ok (library : ParserLibrary) : Loadable := ⟨library, none⟩

/-- No library, and the reason that is given for it. -/
abbrev error (reason : String) : Loadable := ⟨⟨false, fun _ => ⟨1, none⟩⟩, some reason⟩

end Loadable

structure LoadState where
  users : Nat
  /-- The library was loaded here. -/
  owned : Bool
  loaded : Bool
  deriving DecidableEq, Repr

namespace LoadState

/-- No users, and the library not loaded. -/
def fresh : LoadState := ⟨0, false, false⟩

/-- Take the library for one more user. -/
def acquire (library : Loadable) (s : LoadState) : Traced (Except ParseError Unit × LoadState) := do
  if s.users = 0 ∧ !s.loaded then
    match library.refusal with
    | some reason => return (.error (.libraryLoad reason), s)
    | none =>
      Traced.log .debug "Loaded libclang"
      return (.ok (), ⟨s.users + 1, true, true⟩)
  else return (.ok (), { s with users := s.users + 1 })

/-- Give the library back for one user. -/
def release (s : LoadState) : Traced LoadState := do
  let users := s.users - 1
  if users = 0 ∧ s.owned then
    Traced.log .debug "Unloaded libclang"
    return ⟨users, false, false⟩
  else return { s with users }

end LoadState

/-- How an index is created. -/
structure IndexMode where
  pch : PchMode
  diagnostics : DiagnosticsMode
  deriving DecidableEq, Repr

def pchName : PchMode → String
  | .included => "Include"
  | .excluded => "Exclude"

def diagnosticsName : DiagnosticsMode → String
  | .disabled => "Disabled"
  | .enabled => "Enabled"

/-- An index that lives, which is a user of the library it came from. -/
structure Index where
  library : ParserLibrary

/-- Create an index. -/
def createIndex (library : Loadable) (mode : IndexMode) (s : LoadState) :
    Traced (Except ParseError Index × LoadState) := do
  match ← s.acquire library with
  | (.error e, s) => return (.error e, s)
  | (.ok (), s) =>
    Traced.emit (.createIndex mode.pch.code mode.diagnostics.code)
    if library.library.indexes then
      Traced.log .debug s!"Created index ({pchName mode.pch}, diagnostics {diagnosticsName mode.diagnostics})"
      return (.ok ⟨library.library⟩, s)
    else
      let s ← s.release
      return (.error .indexCreation, s)

/-- Why no library is loaded when none is found. -/
def notFoundReason : String :=
  "couldn't find any valid shared libraries matching: ['libclang.so', 'libclang-*.so', 'libclang.so.*', " ++
    "'libclang-*.so.*'], set the `LIBCLANG_PATH` environment variable to a path where one of these files can be found " ++
    "(invalid: [])"

end SyntaxView.Library
