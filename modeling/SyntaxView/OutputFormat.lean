import SyntaxView.Labelled

/-!
# Output formats

How trees are written: as indented text, as one JSON document for each file, or as a line of JSON for each node.
-/

namespace SyntaxView

inductive OutputFormat where
  | tree
  | json
  | jsonl
  deriving DecidableEq, Repr, Inhabited

instance : Labelled OutputFormat where
  all := [.tree, .json, .jsonl]
  label
    | .tree => "tree"
    | .json => "json"
    | .jsonl => "jsonl"

namespace OutputFormat

/-- The two texts are the same up to the case of ASCII letters. -/
def sameLetters (s t : String) : Bool := s.toList.map Char.toLower == t.toList.map Char.toLower

/-- The format with this name; `ignoreCase` says that the case of ASCII letters does not count. -/
def ofName? (ignoreCase : Bool) (name : String) : Option OutputFormat :=
  (Labelled.all : List OutputFormat).find? fun f =>
    if ignoreCase then sameLetters (Labelled.label f) name else Labelled.label f == name

end OutputFormat

end SyntaxView
