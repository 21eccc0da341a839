import Mathlib.Algebra.Ring.Nat
import Mathlib.Data.List.Basic
import SyntaxView.Proofs.Tree.Order

/-!
# Walking call by call

A walk can be made one node at a time. The nodes still to be visited wait on a stack; a call yields the one on top and
puts its children in its place, the first of them on top.

- What is still to be yielded (`Walk.remaining`) is told by the stack. A call takes its first entry off
  (`Walk.next_cases`), so the calls yield the entries of `Node.walk`, one after the other (`Walk.yield_after`).
- A call takes one node off those below the entries of the stack, so that a tree is walked in as many calls as it has
  nodes (`length_walk`).
- A subtree is walked as a tree of its own, one level deeper (`preorderFrom_succ`, `walk_eq_cons`), and with the walk go
  the searches and the count.

Main result: `walk_yields_preorder`.
-/

namespace SyntaxView.Node

/-! ## Calls -/

/-- A walk under way: the nodes still to be visited with all that is below them, the next one last. -/
structure Walk where
  stack : List (Nat × Node)

namespace Walk

/-- The walk of a tree before the first call. -/
def start (n : Node) : Walk := ⟨[(0, n)]⟩

/-- What a call yields and what it leaves. The children are pushed from the last to the first; with an empty stack
nothing is yielded any more. -/
def next (w : Walk) : Option (Nat × Node) × Walk :=
  match w.stack.getLast? with
  | none => (none, w)
  | some (d, n) => (some (d, n), ⟨w.stack.dropLast ++ n.children.reverse.map (d + 1, ·)⟩)

/-- The walk after `k` calls. -/
def after : Nat → Walk → Walk
  | 0, w => w
  | k + 1, w => after k w.next.2

/-- What is still to be yielded. -/
def remaining (w : Walk) : List (Nat × Node) := walkFrom w.stack.reverse

theorem remaining_start (n : Node) : (start n).remaining = n.walk := rfl

/-- A call yields the first entry of what remains and leaves the others. -/
theorem next_cases (w : Walk) : w.next.1 = w.remaining.head? ∧ w.next.2.remaining = w.remaining.tail := by
  obtain ⟨stack⟩ := w
  rcases List.eq_nil_or_concat' stack with rfl | ⟨rest, ⟨d, n⟩, rfl⟩
  · have hnil : remaining ⟨[]⟩ = [] := by rw [remaining, List.reverse_nil, walkFrom]
    rw [next, List.getLast?_nil, hnil]
    exact ⟨rfl, rfl⟩
  · have hnext : next ⟨rest ++ [(d, n)]⟩ = (some (d, n), ⟨rest ++ n.children.reverse.map (d + 1, ·)⟩) := by
      rw [next, List.getLast?_concat, List.dropLast_concat]
    have hcons : remaining ⟨rest ++ [(d, n)]⟩ =
        (d, n) :: walkFrom (n.children.map (d + 1, ·) ++ rest.reverse) := by
      rw [remaining, List.reverse_concat, walkFrom]
    rw [hnext, hcons]
    refine ⟨rfl, ?_⟩
    -- What was pushed in reverse stands in order when the stack is read from its top.
    rw [remaining, List.reverse_append, List.map_reverse, List.reverse_reverse, List.tail_cons]

theorem remaining_after (k : Nat) (w : Walk) : (w.after k).remaining = w.remaining.drop k := by
  induction k generalizing w with
  | zero => rfl
  | succ k ih => rw [after, ih, (next_cases w).2, List.drop_tail]

/-- The call after `k` others yields the entry at place `k`. -/
theorem yield_after (k : Nat) (w : Walk) : (w.after k).next.1 = w.remaining[k]? := by
  rw [(next_cases _).1, remaining_after, List.head?_drop]

end Walk

/-! ## Numbers of nodes -/

/-- Each visit takes one node off those that are pending. -/
theorem length_walkFrom (stack : List (Nat × Node)) : (walkFrom stack).length = pending stack := by
  induction stack using walkFrom.induct with
  | case1 => rw [walkFrom]; rfl
  | case2 d n rest ih => rw [walkFrom, List.length_cons, ih, pending_children]

theorem length_walk (n : Node) : n.walk.length = n.size := by
  rw [walk, length_walkFrom]
  exact Nat.add_zero n.size

theorem sizeAll_eq_sum (ns : List Node) : sizeAll ns = (ns.map size).sum := by
  induction ns with
  | nil => rfl
  | cons n ns ih => rw [sizeAll, ih, List.map_cons, List.sum_cons]

theorem count_eq_sum (n : Node) : n.count = 1 + (n.children.map count).sum := by
  have hcount : count = size := funext length_walk
  obtain ⟨kind, span, children⟩ := n
  rw [hcount, size, sizeAll_eq_sum, children_mk, Nat.add_comm]

/-! ## Subtrees -/

/-- A node one level deeper. -/
def deeper (m : Nat × Node) : Nat × Node := (m.1 + 1, m.2)

mutual
theorem preorderFrom_succ : ∀ (d : Nat) (n : Node), preorderFrom (d + 1) n = (preorderFrom d n).map deeper
  | d, mk kind span children => by
    rw [preorderFrom, preorderFrom, List.map_cons, preorderAll_succ (d + 1) children]
    rfl

theorem preorderAll_succ : ∀ (d : Nat) (ns : List Node), preorderAll (d + 1) ns = (preorderAll d ns).map deeper
  | _, [] => rfl
  | d, n :: ns => by
    rw [preorderAll, preorderAll, List.map_append, preorderFrom_succ d n, preorderAll_succ d ns]
end

/-- A tree comes before its children, and each of these is walked as a tree of its own. -/
theorem walk_eq_cons (n : Node) : n.walk = (0, n) :: n.children.flatMap fun c => c.walk.map deeper := by
  have hchild : ∀ c : Node, c.walk.map deeper = preorderFrom 1 c := by
    intro c
    rw [walk_eq_preorder, preorder, ← preorderFrom_succ]
  simp only [hchild]
  rw [walk_eq_preorder, preorder, preorderFrom_eq_cons, preorderAll_eq_flatMap]

/-! ## Searches -/

/-- The nodes of a tree, each before its children. -/
def nodes (n : Node) : List Node := n.preorder.map Prod.snd

/-- Of the nodes with a property this is the first. -/
def IsFirst (n : Node) (property : Node → Prop) (m : Node) : Prop :=
  property m ∧ ∃ before after, n.nodes = before ++ m :: after ∧ ∀ b ∈ before, ¬ property b

theorem findAll_eq_filter (test : Node → Bool) (n : Node) : n.findAll test = n.nodes.filter test := by
  rw [findAll, walk_eq_preorder, nodes]

theorem find?_eq_head? (test : Node → Bool) (n : Node) : n.find? test = (n.findAll test).head? := by
  rw [find?, findAll, List.head?_filter]

theorem findNamed?_eq_some_iff (name : String) (n m : Node) :
    n.findNamed? name = some m ↔ n.IsFirst (fun b => b.name? = some name) m := by
  rw [findNamed?, find?, walk_eq_preorder, ← nodes, List.find?_eq_some_iff_append]
  simp [IsFirst]

theorem findNamed?_eq_none_iff (name : String) (n : Node) :
    n.findNamed? name = none ↔ ∀ m ∈ n.nodes, m.name? ≠ some name := by
  rw [findNamed?, find?, walk_eq_preorder, ← nodes, List.find?_eq_none]
  simp

/-! ## The walk of a tree -/

/-- **Walking with a stack is the recursive preorder.** The calls yield the entries of the walk one by one, as many as
the tree has nodes, and nothing from then on. First comes the tree itself at depth 0, then child by child what the
child's own walk yields, one level deeper. So a tree has one node more than its children together; all nodes that pass a
test are those of the preorder, in order and as often as they stand there; and a search finds the first of them, if
there is any. -/
theorem walk_yields_preorder (n : Node) :
    (∀ k, ((Walk.start n).after k).next.1 = n.walk[k]?) ∧ n.walk.length = n.size ∧ n.walk = n.preorder ∧
    n.walk = (0, n) :: n.children.flatMap (fun c => c.walk.map fun m => (m.1 + 1, m.2)) ∧
    n.count = 1 + (n.children.map count).sum ∧
    (∀ test, n.findAll test = n.nodes.filter test ∧ n.find? test = (n.findAll test).head? ∧
      (n.find? test = none ↔ n.findAll test = [])) ∧
    ∀ name, (∀ m, n.findNamed? name = some m ↔ n.IsFirst (fun b => b.name? = some name) m) ∧
      (n.findNamed? name = none ↔ ∀ m ∈ n.nodes, m.name? ≠ some name) := by
  refine ⟨fun k => ?_, length_walk n, walk_eq_preorder n, walk_eq_cons n, count_eq_sum n, fun test => ?_,
    fun name => ?_⟩
  · rw [Walk.yield_after, Walk.remaining_start]
  · have hfind := find?_eq_head? test n
    refine ⟨findAll_eq_filter test n, hfind, ?_⟩
    rw [hfind, List.head?_eq_none_iff]
  · exact ⟨findNamed?_eq_some_iff name n, findNamed?_eq_none_iff name n⟩

end SyntaxView.Node
