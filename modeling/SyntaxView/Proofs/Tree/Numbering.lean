import Mathlib.Data.List.Forall2
import SyntaxView.Tree.Lines

/-!
# The lines of a tree

Writing a tree is two things. `Node.numbered` lists the lines of a tree, with numbers from a given one on, and
`LineStream.putLines` writes lines one after the other until one fails. Writing a tree down to a limit is writing the
lines of the tree cut below the limit (`writeFrom_eq_putLines`), whether or not some line fails.

What a line says of other lines is then a matter of the list alone: the numbers count up by one (`numbered_ids`), the
lines show the nodes in the order of `Node.preorder` (`numbered_nodes`), and each line but the first names the number of
an earlier one, a step further up (`linked_of_mem_numbered`).
-/

namespace SyntaxView

/-- A line does not show the children of its node. -/
theorem NodeLine.ofNode_mk (kind : NodeKind) (span : Option Span) (children : List Node) (depth id : Nat)
    (parent : Option Nat) : NodeLine.ofNode (.mk kind span children) depth id parent =
      ⟨kind.label, kind.name?, span.map Span.start, span.map Span.stop, depth, id, parent⟩ := rfl

/-! ## Trees cut below a depth -/

namespace Node

mutual
/-- The tree down to a depth; all of it if there is no limit. -/
def cut : Option Nat → Node → Node
  | limit, mk kind span children => mk kind span (if limit = some 0 then [] else cutAll (limit.map (· - 1)) children)
termination_by structural _ n => n

def cutAll : Option Nat → List Node → List Node
  | _, [] => []
  | limit, n :: ns => cut limit n :: cutAll limit ns
termination_by structural _ l => l
end

/-! ## Numbered lines -/

mutual
/-- The lines of a tree whose root has this depth, parent and number. -/
def numbered : Nat → Option Nat → Nat → Node → List NodeLine
  | depth, parent, id, mk kind span children =>
    .ofNode (mk kind span children) depth id parent :: numberedAll (depth + 1) (some id) (id + 1) children
termination_by structural _ _ _ n => n

/-- The lines of sibling trees, the first of which gets the number `id`. -/
def numberedAll : Nat → Option Nat → Nat → List Node → List NodeLine
  | _, _, _, [] => []
  | depth, parent, id, n :: ns => numbered depth parent id n ++ numberedAll depth parent (id + n.size) ns
termination_by structural _ _ _ l => l
end

mutual
theorem length_numbered : ∀ (depth : Nat) (parent : Option Nat) (id : Nat) (n : Node),
    (numbered depth parent id n).length = n.size
  | depth, parent, id, mk kind span children => by
    simp only [numbered, size, List.length_cons, length_numberedAll]

theorem length_numberedAll : ∀ (depth : Nat) (parent : Option Nat) (id : Nat) (ns : List Node),
    (numberedAll depth parent id ns).length = sizeAll ns
  | _, _, _, [] => rfl
  | depth, parent, id, n :: ns => by
    simp only [numberedAll, sizeAll, List.length_append, length_numbered, length_numberedAll]
end

mutual
/-- The numbers of the lines count up from the first. -/
theorem numbered_ids : ∀ (depth : Nat) (parent : Option Nat) (id : Nat) (n : Node),
    (numbered depth parent id n).map NodeLine.id = List.range' id n.size
  | depth, parent, id, mk kind span children => by
    simp only [numbered, size, List.map_cons, numberedAll_ids, List.range'_succ]
    rfl

theorem numberedAll_ids : ∀ (depth : Nat) (parent : Option Nat) (id : Nat) (ns : List Node),
    (numberedAll depth parent id ns).map NodeLine.id = List.range' id (sizeAll ns)
  | _, _, _, [] => rfl
  | depth, parent, id, n :: ns => by
    simp only [numberedAll, sizeAll, List.map_append, numbered_ids, numberedAll_ids]
    rw [List.range'_append_1]
end

/-- The line is the line of this node at this depth, under some number and some parent. -/
def Shows (l : NodeLine) (m : Nat × Node) : Prop := l = .ofNode m.2 m.1 l.id l.parent

mutual
/-- The lines show the nodes of the tree, each before its children. -/
theorem numbered_nodes : ∀ (depth : Nat) (parent : Option Nat) (id : Nat) (n : Node),
    List.Forall₂ Shows (numbered depth parent id n) (n.preorderFrom depth)
  | depth, parent, id, mk kind span children => by
    rw [numbered, preorderFrom]
    exact .cons rfl (numberedAll_nodes (depth + 1) (some id) (id + 1) children)

theorem numberedAll_nodes : ∀ (depth : Nat) (parent : Option Nat) (id : Nat) (ns : List Node),
    List.Forall₂ Shows (numberedAll depth parent id ns) (preorderAll depth ns)
  | _, _, _, [] => .nil
  | depth, parent, id, n :: ns => by
    rw [numberedAll, preorderAll]
    exact List.rel_append (numbered_nodes depth parent id n) (numberedAll_nodes depth parent (id + n.size) ns)
end

/-- The parent that the line names stands among the lines, under a smaller number and one step further up. -/
def Linked (lines : List NodeLine) (l : NodeLine) : Prop :=
  ∃ m ∈ lines, l.parent = some m.id ∧ m.id < l.id ∧ m.depth + 1 = l.depth

theorem Linked.mono {ls ms : List NodeLine} (h : ∀ l ∈ ls, l ∈ ms) {l : NodeLine} (hl : Linked ls l) : Linked ms l := by
  obtain ⟨m, hm, hlm⟩ := hl
  exact ⟨m, h m hm, hlm⟩

theorem le_id_of_mem_numberedAll {depth id : Nat} {parent : Option Nat} {ns : List Node} {l : NodeLine}
    (h : l ∈ numberedAll depth parent id ns) : id ≤ l.id := by
  have hm : l.id ∈ (numberedAll depth parent id ns).map NodeLine.id := List.mem_map_of_mem h
  rw [numberedAll_ids] at hm
  exact (List.mem_range'_1.1 hm).1

theorem numbered_eq_cons (depth : Nat) (parent : Option Nat) (id : Nat) (n : Node) : numbered depth parent id n =
    .ofNode n depth id parent :: numberedAll (depth + 1) (some id) (id + 1) n.children := by
  cases n
  rfl

mutual
/-- Each line but the first names an earlier line as its parent. -/
theorem linked_of_mem_numbered : ∀ {depth : Nat} {parent : Option Nat} {id : Nat} {n : Node} {l : NodeLine},
    l ∈ numbered depth parent id n → l = .ofNode n depth id parent ∨ Linked (numbered depth parent id n) l
  | depth, parent, id, mk kind span children, l, h => by
    rw [numbered] at h ⊢
    rcases List.mem_cons.1 h with h | h
    · exact .inl h
    refine .inr ?_
    rcases linked_of_mem_numberedAll h with ⟨hp, hd⟩ | hl
    · refine ⟨_, List.mem_cons_self, hp, ?_, hd.symm⟩
      exact le_id_of_mem_numberedAll h
    · exact hl.mono fun m hm => List.mem_cons_of_mem _ hm

theorem linked_of_mem_numberedAll : ∀ {depth : Nat} {parent : Option Nat} {id : Nat} {ns : List Node} {l : NodeLine},
    l ∈ numberedAll depth parent id ns →
      l.parent = parent ∧ l.depth = depth ∨ Linked (numberedAll depth parent id ns) l
  | _, _, _, [], l, h => by cases h
  | depth, parent, id, n :: ns, l, h => by
    rw [numberedAll] at h ⊢
    rcases List.mem_append.1 h with h | h
    · rcases linked_of_mem_numbered h with rfl | hl
      · exact .inl ⟨rfl, rfl⟩
      · exact .inr (hl.mono fun m hm => List.mem_append_left _ hm)
    · rcases linked_of_mem_numberedAll h with hl | hl
      · exact .inl hl
      · exact .inr (hl.mono fun m hm => List.mem_append_right _ hm)
end

end Node

/-! ## Writing lines -/

/-- No flush of the sink fails. -/
def Sink.NeverFails (s : Sink) : Prop := ∀ k, s.fault k = none

theorem Sink.neverFails_reliable : Sink.reliable.NeverFails := fun _ => rfl

theorem Sink.NeverFails.flush {s : Sink} (h : s.NeverFails) :
    s.flush = (.ok (), { s with flushes := s.flushes + 1 }) := by
  rw [Sink.flush, h]

namespace LineStream

/-- Write lines, each of which uses up a number, until one fails. -/
def putLines : List NodeLine → LineStream → Except OutputError Unit × LineStream
  | [], s => (.ok (), s)
  | l :: ls, s =>
    match { s with nextId := s.nextId + 1 }.writeLine l with
    | (.error e, s') => (.error e, s')
    | (.ok (), s') => putLines ls s'

theorem putLines_append (ls ms : List NodeLine) : ∀ s : LineStream,
    putLines (ls ++ ms) s =
      match putLines ls s with
      | (.error e, s') => (.error e, s')
      | (.ok (), s') => putLines ms s' := by
  induction ls with
  | nil => intro s; rfl
  | cons l ls ih =>
    intro s
    simp only [List.cons_append, putLines]
    split
    · rfl
    · exact ih _

/-- Whether or not the flush fails, the line is in the sink and its number is used up. -/
theorem writeLine_eq {s t : LineStream} {l : NodeLine} {r : Except OutputError Unit}
    (h : { s with nextId := s.nextId + 1 }.writeLine l = (r, t)) :
    t.nextId = s.nextId + 1 ∧ t.sink.written = s.sink.written ++ l.text := by
  cases h
  exact ⟨rfl, rfl⟩

/-- Lines that were all written used up a number each, and the sink has their texts. -/
theorem putLines_ok : ∀ {ls : List NodeLine} {s s' : LineStream}, putLines ls s = (.ok (), s') →
    s'.nextId = s.nextId + ls.length ∧
      s'.sink.written.toList = s.sink.written.toList ++ ls.flatMap fun l => l.text.toList
  | [], s, s', h => by
    cases h
    simp
  | l :: ls, s, s', h => by
    rw [putLines] at h
    split at h
    · cases h
    · rename_i t ht
      obtain ⟨hid, hw⟩ := putLines_ok h
      obtain ⟨htid, htw⟩ := writeLine_eq ht
      refine ⟨by rw [hid, htid, List.length_cons]; omega, ?_⟩
      rw [hw, htw, List.flatMap_cons, String.toList_append, List.append_assoc]

/-- A sink that never fails takes all lines. -/
theorem putLines_neverFails : ∀ (ls : List NodeLine) {s : LineStream}, s.sink.NeverFails →
    ∃ t, putLines ls s = (.ok (), t) ∧ t.sink.NeverFails
  | [], s, h => ⟨s, rfl, h⟩
  | l :: ls, s, h => by
    have hput : (s.sink.put l.text).NeverFails := h
    rw [putLines, writeLine, hput.flush]
    exact putLines_neverFails ls h

theorem isDeepest_iff (limit : Option Nat) (depth : Nat) :
    isDeepest limit depth = true ↔ limit.map (· - depth) = some 0 := by
  cases limit with
  | none => simp [isDeepest]
  | some most =>
    simp only [isDeepest, decide_eq_true_eq, Option.map_some, Option.some.injEq]
    omega

mutual
/-- **Writing a tree is writing the lines of the tree cut below the limit.** -/
theorem writeFrom_eq_putLines (limit : Option Nat) : ∀ (depth : Nat) (parent : Option Nat) (n : Node) (s : LineStream),
    writeFrom limit depth parent n s =
      putLines ((n.cut (limit.map (· - depth))).numbered depth parent s.nextId) s
  | depth, parent, .mk kind span children, s => by
    rw [writeFrom, Node.cut, Node.numbered, putLines, writeNode, NodeLine.ofNode_mk, NodeLine.ofNode_mk]
    rcases hw : { s with nextId := s.nextId + 1 }.writeLine
      ⟨kind.label, kind.name?, span.map Span.start, span.map Span.stop, depth, s.nextId, parent⟩ with ⟨r, t⟩
    cases r with
    | error e => simp only [hw]
    | ok _ =>
      simp only [hw]
      have hid : t.nextId = s.nextId + 1 := (writeLine_eq hw).1
      by_cases hd : isDeepest limit depth = true
      · simp only [hd, (isDeepest_iff limit depth).1 hd, ↓reduceIte]
        rfl
      · have hlimit : limit.map (· - depth) ≠ some 0 := fun e => hd ((isDeepest_iff limit depth).2 e)
        have hstep : (limit.map (· - depth)).map (· - 1) = limit.map (· - (depth + 1)) := by
          cases limit <;> simp; omega
        simp only [hd, hlimit, ↓reduceIte, hstep, ← hid]
        exact writeAll_eq_putLines limit (depth + 1) (some s.nextId) children t

theorem writeAll_eq_putLines (limit : Option Nat) : ∀ (depth : Nat) (parent : Option Nat) (ns : List Node)
    (s : LineStream), writeAll limit depth parent ns s =
      putLines (Node.numberedAll depth parent s.nextId (Node.cutAll (limit.map (· - depth)) ns)) s
  | depth, parent, [], s => rfl
  | depth, parent, n :: ns, s => by
    rw [writeAll, Node.cutAll, Node.numberedAll, writeFrom_eq_putLines limit depth parent n s, putLines_append]
    rcases hw : putLines ((n.cut (limit.map (· - depth))).numbered depth parent s.nextId) s with ⟨r, t⟩
    cases r with
    | error e => rfl
    | ok _ =>
      have hid := (putLines_ok hw).1
      rw [Node.length_numbered] at hid
      rw [← hid]
      exact writeAll_eq_putLines limit depth parent ns t
end

end LineStream

end SyntaxView
