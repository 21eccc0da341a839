import SyntaxView.Tree.Node

/-!
# The order of visiting

Walking a tree with a stack visits its nodes in the order of `Node.preorder`: each node before its children, and the
children from the first to the last (`Node.walk_eq_preorder`).
-/

namespace SyntaxView.Node

theorem preorderFrom_eq_cons (d : Nat) (n : Node) : preorderFrom d n = (d, n) :: preorderAll (d + 1) n.children := by
  cases n
  rfl

theorem preorderAll_eq_flatMap (d : Nat) : ∀ ns : List Node, preorderAll d ns = ns.flatMap (preorderFrom d)
  | [] => rfl
  | n :: ns => by rw [preorderAll, preorderAll_eq_flatMap d ns, List.flatMap_cons]

theorem preorderAll_append (d : Nat) (ns ms : List Node) :
    preorderAll d (ns ++ ms) = preorderAll d ns ++ preorderAll d ms := by
  simp only [preorderAll_eq_flatMap, List.flatMap_append]

/-- The entries of the stack are visited one after the other, each with all that is below it. -/
theorem walkFrom_eq_flatMap (stack : List (Nat × Node)) :
    walkFrom stack = stack.flatMap fun m => preorderFrom m.1 m.2 := by
  induction stack using walkFrom.induct with
  | case1 => rw [walkFrom, List.flatMap_nil]
  | case2 d n rest ih =>
    have hchildren : (n.children.map (d + 1, ·)).flatMap (fun m => preorderFrom m.1 m.2) =
        preorderAll (d + 1) n.children := by
      rw [List.flatMap_map, preorderAll_eq_flatMap]
    rw [walkFrom, ih, List.flatMap_append, hchildren, List.flatMap_cons, preorderFrom_eq_cons, List.cons_append]

/-- **The walk lists the nodes in preorder.** -/
theorem walk_eq_preorder (n : Node) : n.walk = n.preorder := by
  rw [walk, walkFrom_eq_flatMap, List.flatMap_singleton, preorder]

end SyntaxView.Node
