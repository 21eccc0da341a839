import SyntaxView.Diagnostic

/-!
# Parsed files

A parsed file: its name as the parser library was given it, its tree and the diagnostics.
-/

namespace SyntaxView

structure ParsedFile where
  fileName : String
  tree : Node
  diagnostics : List Diagnostic
  deriving Repr

namespace ParsedFile

def hasErrors (f : ParsedFile) : Bool := f.diagnostics.any Diagnostic.isError

def toJson (f : ParsedFile) : Json :=
  .obj [("file_name", .str f.fileName), ("ast", f.tree.toJson), ("diagnostics", .arr (f.diagnostics.map Diagnostic.toJson))]

def diagnosticsOfJson? : Json → Option (List Diagnostic)
  | .arr items => items.mapM Diagnostic.ofJson?
  | _ => none

def ofJson? (v : Json) : Option ParsedFile := do
  let fields ← v.record? ["file_name", "ast", "diagnostics"]
  let fileName ← Json.required? fields "file_name" Json.text?
  let tree ← Json.required? fields "ast" Node.ofJson?
  let diagnostics ← Json.required? fields "diagnostics" diagnosticsOfJson?
  return ⟨fileName, tree, diagnostics⟩

end ParsedFile

end SyntaxView
