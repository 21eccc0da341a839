import SyntaxView.Tree.Kind
import SyntaxView.Tree.Position

/-!
# Syntax trees

A node has a kind, a span if it is known, and children in order. `Node.preorder` lists the nodes of a tree with their
depths by recursion. `Node.walk` yields the same list step by step, with the nodes still to be visited on a stack; the
searches work on it.
-/

namespace SyntaxView

inductive Node where
  | mk (kind : NodeKind) (span : Option Span) (children : List Node)
  deriving Repr

namespace Node

def kind : Node → NodeKind
  | mk k _ _ => k

def span : Node → Option Span
  | mk _ s _ => s

def children : Node → List Node
  | mk _ _ cs => cs

@[simp] theorem kind_mk (k : NodeKind) (s : Option Span) (cs : List Node) : (mk k s cs).kind = k := rfl

@[simp] theorem span_mk (k : NodeKind) (s : Option Span) (cs : List Node) : (mk k s cs).span = s := rfl

@[simp] theorem children_mk (k : NodeKind) (s : Option Span) (cs : List Node) : (mk k s cs).children = cs := rfl

/-- The node that stands for a whole file. -/
def root (children : List Node) : Node := mk .root none children

/-- The node with one more child, after the others. -/
def push : Node → Node → Node
  | mk k s cs, child => mk k s (cs ++ [child])

@[simp] theorem kind_push : ∀ n child : Node, (n.push child).kind = n.kind
  | mk .., _ => rfl

@[simp] theorem span_push : ∀ n child : Node, (n.push child).span = n.span
  | mk .., _ => rfl

@[simp] theorem children_push : ∀ n child : Node, (n.push child).children = n.children ++ [child]
  | mk .., _ => rfl

def label (n : Node) : String := n.kind.label

def name? (n : Node) : Option String := n.kind.name?

/-! ## Equality -/

mutual
def same : Node → Node → Bool
  | mk k s cs, mk k' s' cs' => decide (k = k') && decide (s = s') && sameAll cs cs'
termination_by structural n => n

def sameAll : List Node → List Node → Bool
  | [], [] => true
  | n :: ns, m :: ms => same n m && sameAll ns ms
  | _, _ => false
termination_by structural l => l
end

/-! ## Order of nodes -/

mutual
/-- The nodes of a tree whose root has depth `d`, each before its children. -/
def preorderFrom (d : Nat) : Node → List (Nat × Node)
  | mk k s cs => (d, mk k s cs) :: preorderAll (d + 1) cs
termination_by structural n => n

def preorderAll (d : Nat) : List Node → List (Nat × Node)
  | [] => []
  | n :: ns => preorderFrom d n ++ preorderAll d ns
termination_by structural l => l
end

/-- The nodes of a tree with their depths, each before its children. -/
def preorder (n : Node) : List (Nat × Node) := preorderFrom 0 n

mutual
/-- The number of nodes. -/
def size : Node → Nat
  | mk _ _ cs => sizeAll cs + 1
termination_by structural n => n

def sizeAll : List Node → Nat
  | [] => 0
  | n :: ns => size n + sizeAll ns
termination_by structural l => l
end

/-- The number of nodes below the entries of a stack, entries included. -/
def pending (stack : List (Nat × Node)) : Nat := sizeAll (stack.map Prod.snd)

theorem sizeAll_append (l m : List Node) : sizeAll (l ++ m) = sizeAll l + sizeAll m := by
  induction l with
  | nil => simp [sizeAll]
  | cons n ns ih => simp [sizeAll, ih, Nat.add_assoc]

/-- Replacing a node by its children takes one node away. -/
theorem pending_children (d : Nat) (n : Node) (rest : List (Nat × Node)) :
    pending (n.children.map (d + 1, ·) ++ rest) + 1 = pending ((d, n) :: rest) := by
  cases n with
  | mk k s cs =>
    have h : (cs.map (fun m => (d + 1, m))).map Prod.snd = cs := by simp [Function.comp_def]
    simp only [pending, children_mk, List.map_append, h, sizeAll_append, List.map_cons, sizeAll, size]
    omega

/-- Visit the node on top of the stack and put its children in its place, until the stack is empty. -/
def walkFrom : List (Nat × Node) → List (Nat × Node)
  | [] => []
  | (d, n) :: rest => (d, n) :: walkFrom (n.children.map (d + 1, ·) ++ rest)
termination_by stack => pending stack
decreasing_by
  have h := pending_children d n rest
  omega

/-- The nodes of a tree with their depths in the order of visiting. -/
def walk (n : Node) : List (Nat × Node) := walkFrom [(0, n)]

/-- The first node that passes the test. -/
def find? (test : Node → Bool) (n : Node) : Option Node := (n.walk.map Prod.snd).find? test

def findAll (test : Node → Bool) (n : Node) : List Node := (n.walk.map Prod.snd).filter test

/-- The first node with this name. -/
def findNamed? (name : String) (n : Node) : Option Node := n.find? fun m => m.name? == some name

/-- The number of nodes visited. -/
def count (n : Node) : Nat := n.walk.length

end Node

end SyntaxView
