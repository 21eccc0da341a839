import SyntaxView.OutputFormat
import SyntaxView.ParsedFile.Basic
import SyntaxView.Tree.Lines
import SyntaxView.Tree.Render

/-!
# Writing parsed files

Parsed files are written one after the other in a format, down to a depth limit: as trees under their names, as JSON
documents, which know no limit, or as lines numbered through.
-/

namespace SyntaxView.ParsedFile

/-- The file name and the tree below it. -/
def treeText (limit : Option Nat) (f : ParsedFile) : String := f.fileName ++ "\n" ++ f.tree.render limit

def jsonText (f : ParsedFile) : String := f.toJson.pretty ++ "\n"

/-- Write trees as lines, until one fails. -/
def writeLines (limit : Option Nat) : List ParsedFile → LineStream → Except OutputError Unit × LineStream
  | [], s => (.ok (), s)
  | f :: rest, s =>
    match s.write limit f.tree with
    | (.error e, s) => (.error e, s)
    | (.ok (), s) => writeLines limit rest s

/-- Write parsed files and flush what is written. -/
def writeAll (format : OutputFormat) (limit : Option Nat) (files : List ParsedFile) (sink : Sink) :
    Except OutputError Unit × Sink :=
  match format with
  | .tree => (sink.put (String.join (files.map (treeText limit)))).flush
  | .json => (sink.put (String.join (files.map jsonText))).flush
  | .jsonl =>
    match writeLines limit files (.ofSink sink) with
    | (.error e, s) => (.error e, s.sink)
    | (.ok (), s) => s.sink.flush

/-- The text of parsed files in a format, down to a limit: what a sink that never fails takes. -/
def textOf (format : OutputFormat) (limit : Option Nat) (files : List ParsedFile) : String :=
  (writeAll format limit files .reliable).2.written

end SyntaxView.ParsedFile
