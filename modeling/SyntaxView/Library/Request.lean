import SyntaxView.Options
import SyntaxView.ParseError

/-!
# Requests to a parser library

A request names a file, the arguments for the compiler, contents that stand in for files, and options. The library takes
texts that end at the character of code zero, so no text of a request may hold it; `Request.fault?` finds the first that
does.
-/

namespace SyntaxView.Library

/-- Contents that stand in for a file. -/
structure UnsavedFile where
  name : String
  contents : String
  deriving DecidableEq, Repr

structure Request where
  fileName : String
  arguments : List String
  unsaved : List UnsavedFile
  options : OptionSet
  deriving DecidableEq, Repr

def hasNul (s : String) : Bool := s.toList.contains (Char.ofNat 0)

namespace Request

/-- The first text that cannot be handed over: the file name, then the arguments, then the unsaved files in order. -/
def fault? (r : Request) : Option ParseError :=
  if hasNul r.fileName then some (.fileName r.fileName)
  else
    match r.arguments.find? hasNul with
    | some word => some (.argument r.fileName word)
    | none =>
      r.unsaved.findSome? fun u =>
        if hasNul u.name then some (.fileName u.name)
        else if hasNul u.contents then some (.unsavedContents u.name)
        else none

end Request

end SyntaxView.Library
