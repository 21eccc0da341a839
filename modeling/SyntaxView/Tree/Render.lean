import SyntaxView.Tree.Node

/-!
# Trees as indented text

One line for each node in the order of visiting: two spaces for each level, the description of its kind, and its span in
brackets.
-/

namespace SyntaxView.Node

/-- A depth is within the limit, if there is one. -/
def withinDepth (limit : Option Nat) (depth : Nat) : Bool :=
  match limit with
  | none => true
  | some most => depth ≤ most

def renderLine (depth : Nat) (n : Node) : String :=
  String.ofList (List.replicate (2 * depth) ' ') ++ n.kind.describe ++
    (match n.span with | some s => " [" ++ s.describe ++ "]" | none => "") ++ "\n"

/-- The lines of the nodes down to the depth limit. -/
def render (limit : Option Nat) (n : Node) : String :=
  String.join ((n.walk.filter fun v => withinDepth limit v.1).map fun v => renderLine v.1 v.2)

end SyntaxView.Node
