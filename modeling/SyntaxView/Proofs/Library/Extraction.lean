import SyntaxView.Library.Cursor
import SyntaxView.Proofs.Tree.Order

/-!
# What is taken over from a parser library

`treeOf` visits the cursors of a file and adds the node of each to the node above it, after all that is below the cursor
has been visited. Its nodes are those of the cursors that neither are in a system header nor below one that is, in the
order in which the cursors stand, each as deep as its cursor (`walk_treeOf`).

A `Place` is a cursor together with those above it; `Cursor.places` lists the places of a tree of cursors, whether or
not they are taken over. What one visit adds to the node above is what the visible places of the cursor show
(`Cursor.preorder_visit`).
-/

namespace SyntaxView.Library

/-! ## Places of cursors -/

/-- A cursor and those above it, the nearest first; the file itself is none of them. -/
structure Place where
  info : CursorInfo
  above : List CursorInfo

namespace Place

/-- Neither the cursor nor any above it is in a system header. -/
def visible (p : Place) : Bool := (p.info :: p.above).all fun i => !i.inSystemHeader

/-- What the node of a cursor shows: how deep it is below the file, its kind and its span. -/
def view (p : Place) : Nat × NodeKind × Option Span := (p.above.length + 1, p.info.toKind, some p.info.span)

end Place

namespace Cursor

mutual
/-- The places of a cursor and of what is below it, each before those below. -/
def places (above : List CursorInfo) : Cursor → List Place
  | mk info children => ⟨info, above⟩ :: placesAll (info :: above) children
termination_by structural c => c

def placesAll (above : List CursorInfo) : List Cursor → List Place
  | [] => []
  | c :: cs => places above c ++ placesAll above cs
termination_by structural l => l
end

mutual
/-- All places of a cursor have what is above it above them. -/
theorem above_of_mem_places {i : CursorInfo} : ∀ {above : List CursorInfo} {c : Cursor} {p : Place}, i ∈ above →
    p ∈ places above c → i ∈ p.above
  | above, mk info children, p, hi, hp => by
    rw [places] at hp
    rcases List.mem_cons.1 hp with rfl | hp
    · exact hi
    · exact above_of_mem_placesAll (List.mem_cons_of_mem info hi) hp

theorem above_of_mem_placesAll {i : CursorInfo} : ∀ {above : List CursorInfo} {cs : List Cursor} {p : Place},
    i ∈ above → p ∈ placesAll above cs → i ∈ p.above
  | _, [], _, _, hp => by cases hp
  | above, c :: cs, p, hi, hp => by
    rw [placesAll] at hp
    rcases List.mem_append.1 hp with hp | hp
    · exact above_of_mem_places hi hp
    · exact above_of_mem_placesAll hi hp
end

/-- Nothing is visible from a cursor in a system header on. -/
theorem filter_places_of_inSystemHeader {info : CursorInfo} (h : info.inSystemHeader = true) (above : List CursorInfo)
    (children : List Cursor) : (places above (mk info children)).filter Place.visible = [] := by
  rw [List.filter_eq_nil_iff]
  intro p hp hv
  have hi : info ∈ p.info :: p.above := by
    rw [places] at hp
    rcases List.mem_cons.1 hp with rfl | hp
    · exact List.mem_cons_self
    · exact List.mem_cons_of_mem _ (above_of_mem_placesAll List.mem_cons_self hp)
  have hn := List.all_eq_true.1 hv info hi
  simp [h] at hn

end Cursor

/-! ## Visiting -/

/-- What a node shows. -/
def nodeView (m : Nat × Node) : Nat × NodeKind × Option Span := (m.1, m.2.kind, m.2.span)

namespace Cursor

/-- A visit changes nothing of the node above but its children. -/
theorem kind_span_visit (c : Cursor) (n : Node) : (visit c n).kind = n.kind ∧ (visit c n).span = n.span := by
  cases c
  rw [visit]
  split
  · exact ⟨rfl, rfl⟩
  · exact ⟨n.kind_push _, n.span_push _⟩

theorem kind_span_visitAll : ∀ (cs : List Cursor) (n : Node),
    (visitAll cs n).kind = n.kind ∧ (visitAll cs n).span = n.span
  | [], n => ⟨rfl, rfl⟩
  | c :: cs, n => by
    obtain ⟨hk, hs⟩ := kind_span_visitAll cs (visit c n)
    obtain ⟨hk', hs'⟩ := kind_span_visit c n
    rw [visitAll]
    exact ⟨hk.trans hk', hs.trans hs'⟩

mutual
/-- A visit adds what is visible of the cursor after what the node above has already got. -/
theorem preorder_visit : ∀ (above : List CursorInfo) (c : Cursor) (n : Node),
    (∀ i ∈ above, i.inSystemHeader = false) →
      (Node.preorderAll (above.length + 1) (visit c n).children).map nodeView =
        (Node.preorderAll (above.length + 1) n.children).map nodeView ++
          ((places above c).filter Place.visible).map Place.view
  | above, mk info children, n, ha => by
    by_cases h : info.inSystemHeader = true
    · rw [filter_places_of_inSystemHeader h, visit, if_pos h, List.map_nil, List.append_nil]
    · rw [Bool.not_eq_true] at h
      have ha' : ∀ i ∈ info :: above, i.inSystemHeader = false := List.forall_mem_cons.2 ⟨h, ha⟩
      have hvisible : Place.visible ⟨info, above⟩ = true := by simpa [Place.visible] using ha'
      have hbelow := preorder_visitAll (info :: above) children (.mk info.toKind (some info.span) []) ha'
      rw [List.length_cons, Node.children_mk, Node.preorderAll, List.map_nil, List.nil_append] at hbelow
      have hchild : nodeView (above.length + 1, visitAll children (.mk info.toKind (some info.span) [])) =
          Place.view ⟨info, above⟩ := by
        obtain ⟨hk, hs⟩ := kind_span_visitAll children (.mk info.toKind (some info.span) [])
        simp only [nodeView, Place.view, hk, hs, Node.kind_mk, Node.span_mk]
      -- The new child comes last, and what is below it has been found by its own visits.
      rw [visit, if_neg (by simp [h]), Node.children_push, Node.preorderAll_append, List.map_append, Node.preorderAll,
        Node.preorderAll, List.append_nil, Node.preorderFrom_eq_cons, List.map_cons, places,
        List.filter_cons_of_pos hvisible, List.map_cons, hchild, hbelow]

theorem preorder_visitAll : ∀ (above : List CursorInfo) (cs : List Cursor) (n : Node),
    (∀ i ∈ above, i.inSystemHeader = false) →
      (Node.preorderAll (above.length + 1) (visitAll cs n).children).map nodeView =
        (Node.preorderAll (above.length + 1) n.children).map nodeView ++
          ((placesAll above cs).filter Place.visible).map Place.view
  | above, [], n, _ => by simp [visitAll, placesAll]
  | above, c :: cs, n, ha => by
    rw [visitAll, preorder_visitAll above cs (visit c n) ha, preorder_visit above c n ha, placesAll, List.filter_append,
      List.map_append, List.append_assoc]
end

end Cursor

/-! ## Kinds -/

/-- No cursor becomes the node of a file. -/
theorem CursorInfo.toKind_ne_root (c : CursorInfo) : c.toKind ≠ .root := by
  have hgroup : ∀ k, c.groupKind? = some k → k ≠ .root := by
    rintro k h rfl
    simp [groupKind?] at h
  have hsingle : c.singleKind ≠ .root := by
    unfold singleKind
    repeat' split
    all_goals nofun
  rw [toKind]
  cases h : c.groupKind? with
  | none => exact hsingle
  | some k => exact hgroup k h

/-! ## The tree of a file -/

/-- **The tree of a file holds exactly the cursors outside system headers**: after the node of the file itself, the walk
shows the cursors that neither are in a system header nor below one that is, in order, each at its own depth and with
its own kind and span. So the node of the file is the only one of its kind and the only one without a span. -/
theorem walk_treeOf (cs : List Cursor) : ∃ rest, (treeOf cs).walk = (0, treeOf cs) :: rest ∧
    rest.map nodeView = ((Cursor.placesAll [] cs).filter Place.visible).map Place.view ∧
    (treeOf cs).kind = .root ∧ (treeOf cs).span = none ∧ ∀ m ∈ rest, m.2.kind ≠ .root ∧ m.2.span ≠ none := by
  have hrest : (Node.preorderAll 1 (treeOf cs).children).map nodeView =
      ((Cursor.placesAll [] cs).filter Place.visible).map Place.view :=
    Cursor.preorder_visitAll [] cs (.root []) (List.forall_mem_nil _)
  obtain ⟨hk, hs⟩ : (treeOf cs).kind = .root ∧ (treeOf cs).span = none := Cursor.kind_span_visitAll cs (.root [])
  refine ⟨Node.preorderAll 1 (treeOf cs).children, ?_, hrest, hk, hs, ?_⟩
  · rw [Node.walk_eq_preorder, Node.preorder, Node.preorderFrom_eq_cons]
  · intro m hm
    have hv : nodeView m ∈ (Node.preorderAll 1 (treeOf cs).children).map nodeView := List.mem_map_of_mem hm
    rw [hrest] at hv
    obtain ⟨p, -, hp⟩ := List.mem_map.1 hv
    simp only [Place.view, nodeView, Prod.mk.injEq] at hp
    rw [← hp.2.1, ← hp.2.2]
    exact ⟨p.info.toKind_ne_root, Option.some_ne_none _⟩

end SyntaxView.Library
