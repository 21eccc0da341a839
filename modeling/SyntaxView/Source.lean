import SyntaxView.Command.Basic
import SyntaxView.Library.Loading

/-!
# Sources

A source is an index with the results of all files parsed with it, in order. A file that fails leaves its error among
the results and does not concern the others.
-/

namespace SyntaxView

open Library (Index IndexMode Loadable LoadState Request UnsavedFile)

abbrev ParseResult := Except ParseError ParsedFile

structure Source where
  index : Index
  results : List ParseResult

namespace Source

/-- A source without results. -/
def create (library : Loadable) (mode : IndexMode) (s : LoadState) : Traced (Except ParseError Source × LoadState) := do
  match ← Library.createIndex library mode s with
  | (.error e, s) => return (.error e, s)
  | (.ok index, s) => return (.ok ⟨index, []⟩, s)

/-- Parse one more file. -/
def parse (source : Source) (r : Request) : Traced Source := do
  let result ← source.index.library.parse r
  return { source with results := source.results ++ [result] }

/-- Parse files one after the other. -/
def parseAll : Source → List Request → Traced Source
  | source, [] => return source
  | source, r :: rest => do parseAll (← source.parse r) rest

/-- A source with the results of some requests. -/
def ofRequests (library : Loadable) (mode : IndexMode) (requests : List Request) (s : LoadState) :
    Traced (Except ParseError Source × LoadState) := do
  match ← create library mode s with
  | (.error e, s) => return (.error e, s)
  | (.ok source, s) => return (.ok (← source.parseAll requests), s)

/-- The request for a file. -/
def fileRequest (file : String) (arguments : List String) (options : OptionSet) : Request :=
  ⟨file, arguments, [], options⟩

/-- The request for contents under the name of a file. -/
def unsavedRequest (file contents : String) (arguments : List String) (options : OptionSet) : Request :=
  ⟨file, arguments, [⟨file, contents⟩], options⟩

/-- The request for a compile command. -/
def commandRequest (w : FileSystem.Place) (options : OptionSet) (c : Command) : Request :=
  fileRequest (c.sourceName w) (c.parserArguments w) options

def parsed (results : List ParseResult) : List ParsedFile :=
  results.filterMap fun
    | .ok u => some u
    | .error _ => none

def failed (results : List ParseResult) : List ParseError :=
  results.filterMap fun
    | .ok _ => none
    | .error e => some e

/-- A source with the results of all commands of a database. -/
def ofDatabase (library : Loadable) (mode : IndexMode) (w : FileSystem.Place) (commands : List Command)
    (options : OptionSet) (s : LoadState) : Traced (Except ParseError Source × LoadState) := do
  match ← ofRequests library mode (commands.map (commandRequest w options)) s with
  | (.error e, s) => return (.error e, s)
  | (.ok source, s) =>
    Traced.log .info
      s!"Parsed {source.results.length} translation unit(s) from compilation database, {(failed source.results).length} failed"
    return (.ok source, s)

/-- The results of a source that is given up, parsed files and errors apart. -/
def partition (source : Source) : List ParsedFile × List ParseError :=
  (parsed source.results, failed source.results)

end Source

end SyntaxView
