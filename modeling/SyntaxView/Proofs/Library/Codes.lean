import SyntaxView.Proofs.Library.Extraction
import SyntaxView.Proofs.Tree.Json

/-!
# Numbers of kinds

A parser library tells kinds of types and kinds of cursors by numbers. No number is lost when a tree is taken over:

- The number of a type can be read off the kind of the type (`TypeKind.code_ofCode`).
- What a cursor can become is told once (`CursorInfo.Becomes`). A node is of a kind whose label stands for the number of
  the cursor in `NodeKind.codeTable`, or of a kind without a name here, which keeps the number. No label stands in the
  table twice, so the number can be read off the label (`CursorInfo.code?_toKind`).
- The types that a node carries are those of its cursor (`CursorInfo.Becomes.types_eq`).

Main result: `codes_recovered`.
-/

namespace SyntaxView

/-! ## Types -/

namespace TypeKind

/-- The number in the parser library. -/
def code : TypeKind → Int32
  | .known t => t.code
  | .notSupported n => n

theorem code_ofCode (n : Int32) : (ofCode n).code = n := by
  rw [ofCode]
  cases h : (Labelled.all : List KnownType).find? fun t => t.code == n with
  | none => rfl
  | some t => simpa [code] using List.find?_some h

theorem ofCode_injective : Function.Injective ofCode := Function.LeftInverse.injective code_ofCode

end TypeKind

/-! ## Labels -/

namespace NodeKind

/-- The labels of a group of kinds with their numbers. -/
def groupCodes {α : Type} [Labelled α] (code : α → Int32) : List (String × Int32) :=
  Labelled.all.map fun a => (Labelled.label a, code a)

theorem mem_groupCodes {α : Type} [Labelled α] [LawfulLabelled α] (code : α → Int32) (a : α) :
    (Labelled.label a, code a) ∈ groupCodes code :=
  List.mem_map_of_mem (Labelled.mem_all a)

/-- The labels of the kinds that form no group, with their numbers. -/
def singleCodes : List (String × Int32) :=
  [("Field", 6), ("Function", 8), ("Method", 21), ("Constructor", 24), ("Destructor", 25), ("AccessSpecifier", 39),
   ("CStyleCast", 117)]

/-- The labels of all kinds that stand for one number. -/
def codeTable : List (String × Int32) :=
  groupCodes Plain.code ++ groupCodes Named.code ++ groupCodes Quoted.code ++ groupCodes RecordForm.code ++
    groupCodes Scoped.code ++ groupCodes TypedForm.code ++ groupCodes AliasForm.code ++ singleCodes

theorem nodup_codeTable : (codeTable.map Prod.fst).Nodup := by decide +kernel

theorem not_mem_codeTable : "NotSupported" ∉ codeTable.map Prod.fst := by decide

/-- The number in the parser library, by the label alone where the kind has one of its own. -/
def code? : NodeKind → Option Int32
  | .notSupported _ n => some n
  | k => codeTable.lookup k.label

theorem code?_of_mem {k : NodeKind} {n : Int32} (h : (k.label, n) ∈ codeTable) : k.code? = some n := by
  unfold code?
  split
  · exact absurd (List.mem_map_of_mem h) not_mem_codeTable
  · exact Table.lookup_of_mem nodup_codeTable h

/-- The types that a node carries. -/
def types : NodeKind → List TypeKind
  | .field _ _ type | .typed _ _ type | .cStyleCast type => [type]
  | .function _ _ type returnType canonicalReturnType
  | .method _ _ type _ returnType canonicalReturnType _ _ => [type, returnType, canonicalReturnType]
  | .alias _ _ underlying _ => [underlying]
  | .root | .plain _ | .named .. | .quoted .. | .record .. | .scoped .. | .constructor .. | .destructor ..
  | .accessSpecifier _ | .notSupported .. => []

/-- The numbers that can be read off a node: that of its kind and those of its types. -/
def codes (k : NodeKind) : Option Int32 × List Int32 := (k.code?, k.types.map TypeKind.code)

end NodeKind

/-! ## Cursors -/

namespace Library

namespace CursorInfo

open NodeKind

/-- The kinds of node that a cursor can become: one of a group or a single one, by the number of the cursor, or one
without a name here if the number stands for no label. -/
inductive Becomes (c : CursorInfo) : NodeKind → Prop
  | plain (a : Plain) : a.code = c.kind → Becomes c (.plain a)
  | named (a : Named) (name : String) : a.code = c.kind → Becomes c (.named a name)
  | quoted (a : Quoted) (value : String) : a.code = c.kind → Becomes c (.quoted a value)
  | record (a : RecordForm) (name : String) (access : Access) (isAbstract : Bool) : a.code = c.kind →
    Becomes c (.record a name access isAbstract)
  | withAccess (a : Scoped) (name : String) (access : Access) : a.code = c.kind → Becomes c (.scoped a name access)
  | typed (a : TypedForm) (name : String) : a.code = c.kind → Becomes c (.typed a name (.ofCode c.type))
  | aliasOf (a : AliasForm) (name : String) (access : Access) : a.code = c.kind →
    Becomes c (.alias a name (.ofCode c.underlyingType) access)
  | field (name : String) (access : Access) : c.kind = 6 → Becomes c (.field name access (.ofCode c.type))
  | function (name displayName : String) : c.kind = 8 →
    Becomes c (.function name displayName (.ofCode c.type) (.ofCode c.resultType) (.ofCode c.canonicalResultType))
  | method (name : String) (access : Access) (virtuality : Virtuality) (isStatic isConst : Bool) : c.kind = 21 →
    Becomes c (.method name access (.ofCode c.type) virtuality (.ofCode c.resultType) (.ofCode c.canonicalResultType)
      isStatic isConst)
  | constructor (name : String) (form : ConstructorForm) (access : Access) : c.kind = 24 →
    Becomes c (.constructor name form access)
  | destructor (name : String) (access : Access) (virtuality : Virtuality) : c.kind = 25 →
    Becomes c (.destructor name access virtuality)
  | accessSpecifier (access : Access) : c.kind = 39 → Becomes c (.accessSpecifier access)
  | cStyleCast : c.kind = 117 → Becomes c (.cStyleCast (.ofCode c.type))
  | notSupported (name : String) : c.kind ∉ codeTable.map Prod.snd → Becomes c (.notSupported name c.kind)

theorem code_of_member? {α : Type} [Labelled α] {code : α → Int32} {c : CursorInfo} {a : α}
    (h : c.member? code = some a) : code a = c.kind := by
  simpa using List.find?_some h

theorem not_mem_of_member? {α : Type} [Labelled α] {code : α → Int32} {c : CursorInfo}
    (h : c.member? code = none) : c.kind ∉ (groupCodes code).map Prod.snd := by
  intro hmem
  obtain ⟨row, hrow, hkind⟩ := List.mem_map.1 hmem
  obtain ⟨a, ha, rfl⟩ := List.mem_map.1 hrow
  exact List.find?_eq_none.1 h a ha (beq_iff_eq.2 hkind)

theorem becomes_of_groupKind? {c : CursorInfo} {k : NodeKind} (h : c.groupKind? = some k) : c.Becomes k := by
  simp only [groupKind?, Option.orElse_eq_orElse, Option.orElse_eq_or, Option.or_eq_some_iff,
    Option.map_eq_some_iff] at h
  rcases h with ⟨a, ha, rfl⟩ | ⟨-, ⟨a, ha, rfl⟩ | ⟨-, ⟨a, ha, rfl⟩ | ⟨-, ⟨a, ha, rfl⟩ | ⟨-, ⟨a, ha, rfl⟩ |
    ⟨-, ⟨a, ha, rfl⟩ | ⟨-, a, ha, rfl⟩⟩⟩⟩⟩⟩
  · exact .plain a (code_of_member? ha)
  · exact .named a _ (code_of_member? ha)
  · exact .quoted a _ (code_of_member? ha)
  · exact .record a _ _ _ (code_of_member? ha)
  · exact .withAccess a _ _ (code_of_member? ha)
  · exact .typed a _ (code_of_member? ha)
  · exact .aliasOf a _ _ (code_of_member? ha)

theorem not_mem_of_groupKind? {c : CursorInfo} (h : c.groupKind? = none)
    (hsingle : c.kind ∉ singleCodes.map Prod.snd) : c.kind ∉ codeTable.map Prod.snd := by
  simp only [groupKind?, Option.orElse_eq_orElse, Option.orElse_eq_or, Option.or_eq_none_iff,
    Option.map_eq_none_iff] at h
  obtain ⟨hplain, hnamed, hquoted, hrecord, hscoped, htyped, halias⟩ := h
  simp only [codeTable, List.map_append, List.mem_append, not_or, and_assoc]
  exact ⟨not_mem_of_member? hplain, not_mem_of_member? hnamed, not_mem_of_member? hquoted, not_mem_of_member? hrecord,
    not_mem_of_member? hscoped, not_mem_of_member? htyped, not_mem_of_member? halias, hsingle⟩

theorem becomes_singleKind {c : CursorInfo} (h : c.groupKind? = none) : c.Becomes c.singleKind := by
  rw [singleKind]
  split_ifs with hfield hfunction hmethod hconstructor hdestructor hspecifier hcast
  · exact .field _ _ hfield
  · exact .function _ _ hfunction
  · exact .method _ _ _ _ _ hmethod
  · exact .constructor _ _ _ hconstructor
  · exact .destructor _ _ _ hdestructor
  · exact .accessSpecifier _ hspecifier
  · exact .cStyleCast hcast
  · refine .notSupported _ (not_mem_of_groupKind? h ?_)
    simp [singleCodes, hfield, hfunction, hmethod, hconstructor, hdestructor, hspecifier, hcast]

theorem becomes_toKind (c : CursorInfo) : c.Becomes c.toKind := by
  rw [toKind]
  cases h : c.groupKind? with
  | none => exact becomes_singleKind h
  | some k => exact becomes_of_groupKind? h

/-- The label stands for the number of the cursor, or the node keeps the number. -/
theorem Becomes.mem_codeTable {c : CursorInfo} {k : NodeKind} (h : c.Becomes k) :
    (k.label, c.kind) ∈ codeTable ∨ ∃ name, k = .notSupported name c.kind := by
  cases h with
  | plain a ha | named a _ ha | quoted a _ ha | record a _ _ _ ha | withAccess a _ _ ha | typed a _ ha
  | aliasOf a _ _ ha =>
    left
    rw [← tag_eq_label, tag, ← ha]
    simp [codeTable, mem_groupCodes]
  | field _ _ hkind | function _ _ hkind | method _ _ _ _ _ hkind | constructor _ _ _ hkind
  | destructor _ _ _ hkind | accessSpecifier _ hkind | cStyleCast hkind =>
    left
    rw [label, hkind]
    simp [codeTable, singleCodes]
  | notSupported name _ => exact .inr ⟨name, rfl⟩

theorem code?_toKind (c : CursorInfo) : c.toKind.code? = some c.kind := by
  rcases (becomes_toKind c).mem_codeTable with hrow | ⟨name, hkind⟩
  · exact code?_of_mem hrow
  · rw [hkind, code?]

/-- Nodes of cursors with different numbers differ in their labels or in the numbers that they keep. -/
theorem label_ne_or_notSupported {c d : CursorInfo} (h : c.kind ≠ d.kind) : c.toKind.label ≠ d.toKind.label ∨
    ∃ name name', c.toKind = .notSupported name c.kind ∧ d.toKind = .notSupported name' d.kind := by
  by_cases hlabel : c.toKind.label = d.toKind.label
  · right
    rcases (becomes_toKind c).mem_codeTable with hc | ⟨name, hc⟩ <;>
      rcases (becomes_toKind d).mem_codeTable with hd | ⟨name', hd⟩
    · -- The table has the label once, so both numbers stand in the same row.
      have hcode := code?_of_mem (hlabel ▸ hc)
      rw [code?_of_mem hd, Option.some.injEq] at hcode
      exact absurd hcode.symm h
    · rw [hlabel, hd] at hc
      exact absurd (List.mem_map_of_mem hc) not_mem_codeTable
    · rw [← hlabel, hc] at hd
      exact absurd (List.mem_map_of_mem hd) not_mem_codeTable
    · exact ⟨name, name', hc, hd⟩
  · exact .inl hlabel

/-! ### Types of cursors -/

/-- The numbers of cursors whose nodes carry types, with the types that such a cursor is asked for. -/
def typesAsked : List (Int32 × List (CursorInfo → Int32)) :=
  [(6, [type]), (8, [type, resultType, canonicalResultType]), (9, [type]), (10, [type]), (20, [underlyingType]),
   (21, [type, resultType, canonicalResultType]), (36, [underlyingType]), (117, [type])]

/-- The numbers of the types that are taken over from a cursor. -/
def types (c : CursorInfo) : List Int32 := ((typesAsked.lookup c.kind).getD []).map fun answer => answer c

theorem typesAsked_of_not_mem {kind : Int32} (h : kind ∉ codeTable.map Prod.snd) : typesAsked.lookup kind = none := by
  have hsub : ∀ row ∈ typesAsked, row.1 ∈ codeTable.map Prod.snd := by decide
  rw [List.lookup_eq_none_iff]
  intro row hrow
  rw [bne_iff_ne]
  rintro rfl
  exact h (hsub row hrow)

theorem Becomes.types_eq {c : CursorInfo} {k : NodeKind} (h : c.Becomes k) : k.types.map TypeKind.code = c.types := by
  cases h with
  | plain a ha | named a _ ha | quoted a _ ha | record a _ _ _ ha | withAccess a _ _ ha =>
    rw [types, ← ha]
    cases a <;> rfl
  | typed a _ ha | aliasOf a _ _ ha =>
    rw [types, ← ha, NodeKind.types, List.map_cons, TypeKind.code_ofCode]
    cases a <;> rfl
  | field _ _ hkind | function _ _ hkind | method _ _ _ _ _ hkind | constructor _ _ _ hkind
  | destructor _ _ _ hkind | accessSpecifier _ hkind | cStyleCast hkind =>
    rw [types, hkind]
    simp only [NodeKind.types, List.map_cons, TypeKind.code_ofCode]
    rfl
  | notSupported name hnot =>
    rw [types, typesAsked_of_not_mem hnot]
    rfl

/-- All numbers of a cursor can be read off its node. -/
theorem codes_toKind (c : CursorInfo) : c.toKind.codes = (some c.kind, c.types) := by
  rw [codes, code?_toKind, (becomes_toKind c).types_eq]

end CursorInfo

/-! ## Trees -/

/-- What the nodes of a tree show but the first, which stands for the file. -/
theorem nodeView_tail_walk (cs : List Cursor) : (treeOf cs).walk.tail.map nodeView =
    ((Cursor.placesAll [] cs).filter Place.visible).map Place.view := by
  rw [Node.walk_eq_preorder, Node.preorder, Node.preorderFrom_eq_cons, List.tail_cons]
  exact Cursor.preorder_visitAll [] cs (.root []) (List.forall_mem_nil _)

theorem codes_tail_walk (cs : List Cursor) : (treeOf cs).walk.tail.map (fun m => m.2.kind.codes) =
    ((Cursor.placesAll [] cs).filter Place.visible).map fun p => (some p.info.kind, p.info.types) := by
  have hview : (fun m : Nat × Node => m.2.kind.codes) = (fun v => v.2.1.codes) ∘ nodeView := rfl
  have hplace : (fun v : Nat × NodeKind × Option Span => v.2.1.codes) ∘ Place.view =
      fun p => (some p.info.kind, p.info.types) := funext fun p => p.info.codes_toKind
  rw [hview, ← List.map_map, nodeView_tail_walk, List.map_map, hplace]

/-- **No number is lost.** Different numbers of types become different kinds of types, and a kind without a name comes
from the number it keeps. Cursors with different numbers, whatever else they answer, become nodes with different labels
or nodes without a name here that keep the different numbers, and never the node of a file. So the numbers of a file's
cursors and of the types taken over from them can be read off the nodes of its tree. -/
theorem codes_recovered :
    (∀ a b, TypeKind.ofCode a = TypeKind.ofCode b → a = b) ∧
    (∀ a n, TypeKind.ofCode a = .notSupported n → a = n) ∧
    (∀ c d : CursorInfo, c.kind ≠ d.kind → c.toKind.label ≠ d.toKind.label ∨
      ∃ name name', c.toKind = .notSupported name c.kind ∧ d.toKind = .notSupported name' d.kind) ∧
    (∀ c : CursorInfo, c.toKind ≠ .root) ∧
    ∀ cs : List Cursor, (treeOf cs).walk.tail.map (fun m => m.2.kind.codes) =
      ((Cursor.placesAll [] cs).filter Place.visible).map fun p => (some p.info.kind, p.info.types) := by
  refine ⟨fun a b h => TypeKind.ofCode_injective h, fun a n h => ?_, fun c d => CursorInfo.label_ne_or_notSupported,
    CursorInfo.toKind_ne_root, codes_tail_walk⟩
  rw [← TypeKind.code_ofCode a, h, TypeKind.code]

/-- A cursor that answers nothing but its kind. -/
def bareCursor (kind : Int32) : CursorInfo where
  kind := kind
  spelling := none
  displayName := none
  access := 0
  type := 0
  resultType := 0
  canonicalResultType := 0
  underlyingType := 0
  isAbstract := 0
  isPureVirtual := 0
  isVirtual := 0
  isStatic := 0
  isConst := 0
  isCopyConstructor := 0
  isMoveConstructor := 0
  isDefaultConstructor := 0
  isConvertingConstructor := 0
  inSystemHeader := false
  start := ⟨none, 0, 0⟩
  stop := ⟨none, 0, 0⟩

theorem foreignKinds_kept_apart : (bareCursor (-7)).toKind.label = (bareCursor 700).toKind.label ∧
    ∃ name name', (bareCursor (-7)).toKind = .notSupported name (-7) ∧
      (bareCursor 700).toKind = .notSupported name' 700 := by
  have hlabel : (bareCursor (-7)).toKind.label = (bareCursor 700).toKind.label := by decide
  have hkind : (bareCursor (-7)).kind ≠ (bareCursor 700).kind := by decide
  exact ⟨hlabel, (codes_recovered.2.2.1 _ _ hkind).resolve_left (absurd hlabel)⟩

end Library

end SyntaxView
