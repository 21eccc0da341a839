import SyntaxView.ParsedFile.Basic
import SyntaxView.Proofs.Data

/-!
# Decoding encoded trees

What is written as a JSON value is read back: labels (`LawfulLabelled`), positions and spans, kinds of types, kinds of
nodes with their data (`NodeKind.ofFields?_fields`), whole trees (`Node.ofJson?_toJson`), diagnostics and parsed files.

Kinds have two tables of names, one for JSON and one for users. They agree (`NodeKind.tag_eq_label`), and the list of
tags by which kinds are counted holds each tag once and nothing else (`NodeKind.mem_order_iff`, `NodeKind.nodup_order`).

The object of a node holds the data of its kind side by side with `kind`, `span` and `children`. No two of these share a
key, whatever the kind (`Node.nodup_keys`), so each is found under its own.
-/

namespace SyntaxView

/-! ## Labels -/

/-- Different values have different labels, and all are listed. -/
class LawfulLabelled (α : Type) [Labelled α] : Prop where
  ofLabel?_label : ∀ a : α, Labelled.ofLabel? (Labelled.label a) = some a

export LawfulLabelled (ofLabel?_label)

instance : LawfulLabelled KnownType := ⟨fun a => by cases a <;> decide⟩

instance : LawfulLabelled Access := ⟨fun a => by cases a <;> decide⟩

instance : LawfulLabelled Virtuality := ⟨fun a => by cases a <;> decide⟩

instance : LawfulLabelled ConstructorForm := ⟨fun a => by cases a <;> decide⟩

instance : LawfulLabelled Severity := ⟨fun a => by cases a <;> decide⟩

theorem Labelled.mem_all {α : Type} [Labelled α] [LawfulLabelled α] (a : α) : a ∈ (Labelled.all : List α) :=
  List.mem_of_find?_eq_some (ofLabel?_label a)

/-- A label is read back, whatever may stand behind labels. -/
@[simp] theorem labelled?_toJson {α : Type} [Labelled α] [LawfulLabelled α] (loose : Bool) (a : α) :
    (Labelled.toJson a).labelled? loose = some a := by
  simp [Labelled.toJson, Json.labelled?, Json.label?, ofLabel?_label]

/-! ## Numbers, positions and spans -/

@[simp] theorem uint32?_toNat (n : UInt32) : (Json.ofNat n.toNat).uint32? = some n := by
  have h : n.toNat < 0x100000000 := n.toNat_lt
  have h' : (0 : Int) ≤ n.toNat ∧ (n.toNat : Int) < 0x100000000 := by omega
  simp [Json.uint32?, Json.ofNat, Json.intIn?, h']

@[simp] theorem int32?_toInt (n : Int32) : (Json.int n.toInt).int32? = some n := by
  have hlo : -0x80000000 ≤ n.toInt := n.le_toInt
  have hhi : n.toInt < 0x80000000 := n.toInt_lt
  simp [Json.int32?, Json.intIn?, hlo, hhi]

/-! ### Fields -/

theorem Json.required?_cons {α : Type} (k : String) (v : Json) (fields : List (String × Json)) (key : String)
    (decode : Json → Option α) : Json.required? ((k, v) :: fields) key decode =
      if key = k then decode v else Json.required? fields key decode := by
  rw [Json.required?, Table.lookup_cons]
  split <;> rfl

theorem Position.ofJson?_obj (fields : List (String × Json)) : Position.ofJson? (.obj fields) =
    (Json.required? fields "file_name" Json.text?).bind fun fileName =>
      (Json.required? fields "line" Json.uint32?).bind fun line =>
        (Json.required? fields "col" Json.uint32?).bind fun column => some ⟨fileName, line, column⟩ := rfl

@[simp] theorem Position.ofJson?_toJson (p : Position) : Position.ofJson? p.toJson = some p := by
  rw [Position.toJson, Position.ofJson?_obj]
  simp [Json.required?_cons, Json.text?]

theorem Span.ofJson?_obj (fields : List (String × Json)) : Span.ofJson? (.obj fields) =
    (Json.required? fields "start_pos" Position.ofJson?).bind fun start =>
      (Json.required? fields "end_pos" Position.ofJson?).bind fun stop => some ⟨start, stop⟩ := rfl

@[simp] theorem Span.ofJson?_toJson (s : Span) : Span.ofJson? s.toJson = some s := by
  rw [Span.toJson, Span.ofJson?_obj]
  simp [Json.required?_cons]

/-! ## Kinds -/

@[simp] theorem TypeKind.ofJson?_toJson (t : TypeKind) : TypeKind.ofJson? t.toJson = some t := by
  cases t with
  | known t =>
    have h := labelled?_toJson true t
    simp only [TypeKind.toJson, Labelled.toJson] at h ⊢
    simp only [TypeKind.ofJson?, h, Option.map_some]
  | notSupported n => simp [TypeKind.toJson, TypeKind.ofJson?]

namespace NodeKind

/-! ### Groups

The groups are tried one after the other, so the tag of a kind must be foreign to all groups before its own.
-/

instance : LawfulLabelled Plain := ⟨fun a => by cases a <;> decide⟩

instance : LawfulLabelled Named := ⟨fun a => by cases a <;> decide⟩

instance : LawfulLabelled Quoted := ⟨fun a => by cases a <;> decide⟩

instance : LawfulLabelled RecordForm := ⟨fun a => by cases a <;> decide⟩

instance : LawfulLabelled Scoped := ⟨fun a => by cases a <;> decide⟩

instance : LawfulLabelled TypedForm := ⟨fun a => by cases a <;> decide⟩

instance : LawfulLabelled AliasForm := ⟨fun a => by cases a <;> decide⟩

/-- No member of the group has this tag. -/
abbrev Foreign (α : Type) [Labelled α] (tag : String) : Prop := (Labelled.ofLabel? tag : Option α) = none

theorem foreign_named (k : Named) : Foreign Plain (Labelled.label k) := by cases k <;> decide

theorem foreign_quoted (k : Quoted) : Foreign Plain (Labelled.label k) ∧ Foreign Named (Labelled.label k) := by
  cases k <;> decide

theorem foreign_record (k : RecordForm) : Foreign Plain (Labelled.label k) ∧ Foreign Named (Labelled.label k) ∧
    Foreign Quoted (Labelled.label k) := by
  cases k <;> decide

theorem foreign_scoped (k : Scoped) : Foreign Plain (Labelled.label k) ∧ Foreign Named (Labelled.label k) ∧
    Foreign Quoted (Labelled.label k) ∧ Foreign RecordForm (Labelled.label k) := by
  cases k <;> decide

theorem foreign_typed (k : TypedForm) : Foreign Plain (Labelled.label k) ∧ Foreign Named (Labelled.label k) ∧
    Foreign Quoted (Labelled.label k) ∧ Foreign RecordForm (Labelled.label k) ∧ Foreign Scoped (Labelled.label k) := by
  cases k <;> decide

theorem foreign_alias (k : AliasForm) : Foreign Plain (Labelled.label k) ∧ Foreign Named (Labelled.label k) ∧
    Foreign Quoted (Labelled.label k) ∧ Foreign RecordForm (Labelled.label k) ∧ Foreign Scoped (Labelled.label k) ∧
    Foreign TypedForm (Labelled.label k) := by
  cases k <;> decide

/-- The tags of the kinds that form no group. -/
def singleTags : List String :=
  ["Root", "Field", "Function", "Method", "Constructor", "Destructor", "AccessSpecifier", "CStyleCast", "NotSupported"]

theorem ofFields?_group {tag : String} (h : tag ∉ singleTags) (fs : List (String × Json)) :
    ofFields? tag fs = groupOfFields? tag fs := by
  unfold ofFields?
  split
  all_goals first | exact absurd (by decide) h | rfl

/-! ### All kinds -/

/-- A kind is found by its tag and its data, whatever other fields follow. -/
theorem ofFields?_fields : ∀ (k : NodeKind) (rest : List (String × Json)),
    ofFields? k.tag (("kind", .str k.tag) :: k.fields ++ rest) = some k
  | .root, _ => rfl
  | .plain k, rest => by
    rw [tag, ofFields?_group (by cases k <;> decide)]
    simp [groupOfFields?, ofLabel?_label]
  | .named k name, rest => by
    rw [tag, ofFields?_group (by cases k <;> decide)]
    simp [groupOfFields?, fields, foreign_named k, ofLabel?_label, Json.required?_cons, Json.text?]
  | .quoted k value, rest => by
    rw [tag, ofFields?_group (by cases k <;> decide)]
    simp [groupOfFields?, fields, foreign_quoted k, ofLabel?_label, Json.required?_cons, Json.text?]
  | .record k name access isAbstract, rest => by
    rw [tag, ofFields?_group (by cases k <;> decide)]
    simp [groupOfFields?, fields, foreign_record k, ofLabel?_label, Json.required?_cons, Json.text?, Json.bool?]
  | .scoped k name access, rest => by
    rw [tag, ofFields?_group (by cases k <;> decide)]
    simp [groupOfFields?, fields, foreign_scoped k, ofLabel?_label, Json.required?_cons, Json.text?]
  | .field name access type, rest => by
    simp [ofFields?, tag, fields, Json.required?_cons, Json.text?]
  | .function .., rest => by
    simp [ofFields?, tag, fields, Json.required?_cons, Json.text?]
  | .method .., rest => by
    simp [ofFields?, tag, fields, Json.required?_cons, Json.text?, Json.bool?]
  | .constructor .., rest => by
    simp [ofFields?, tag, fields, Json.required?_cons, Json.text?]
  | .destructor .., rest => by
    simp [ofFields?, tag, fields, Json.required?_cons, Json.text?]
  | .typed k name type, rest => by
    rw [tag, ofFields?_group (by cases k <;> decide)]
    simp [groupOfFields?, fields, foreign_typed k, ofLabel?_label, Json.required?_cons, Json.text?]
  | .alias k name underlying access, rest => by
    rw [tag, ofFields?_group (by cases k <;> decide)]
    simp [groupOfFields?, fields, foreign_alias k, ofLabel?_label, Json.required?_cons, Json.text?]
  | .accessSpecifier .., rest => by
    simp [ofFields?, tag, fields, Json.required?_cons]
  | .cStyleCast .., rest => by
    simp [ofFields?, tag, fields, Json.required?_cons]
  | .notSupported .., rest => by
    simp [ofFields?, tag, fields, Json.required?_cons, Json.text?]

/-! ### Tags

The tags of all kinds, group by group, are the tags in their order.
-/

/-- The tags of a group of kinds. -/
def groupTags (α : Type) [Labelled α] : List String := (Labelled.all : List α).map Labelled.label

theorem mem_groupTags {α : Type} [Labelled α] [LawfulLabelled α] {t : String} :
    t ∈ groupTags α ↔ ∃ a : α, Labelled.label a = t := by
  rw [groupTags, List.mem_map]
  exact ⟨fun ⟨a, _, ha⟩ => ⟨a, ha⟩, fun ⟨a, ha⟩ => ⟨a, Labelled.mem_all a, ha⟩⟩

/-- The tags of all kinds, those that form no group first. -/
def allTags : List String :=
  singleTags ++ groupTags Plain ++ groupTags Named ++ groupTags Quoted ++ groupTags RecordForm ++ groupTags Scoped ++
    groupTags TypedForm ++ groupTags AliasForm

theorem tag_mem_allTags (k : NodeKind) : k.tag ∈ allTags := by
  cases k <;> simp [allTags, tag, singleTags, mem_groupTags]

theorem exists_tag_of_mem_singleTags {t : String} (h : t ∈ singleTags) : ∃ k : NodeKind, k.tag = t := by
  let type : TypeKind := .notSupported 0
  simp only [singleTags, List.mem_cons, List.not_mem_nil, or_false] at h
  rcases h with rfl | rfl | rfl | rfl | rfl | rfl | rfl | rfl | rfl
  · exact ⟨.root, rfl⟩
  · exact ⟨.field "" .invalid type, rfl⟩
  · exact ⟨.function "" "" type type type, rfl⟩
  · exact ⟨.method "" .invalid type .nonVirtual type type false false, rfl⟩
  · exact ⟨.constructor "" .none .invalid, rfl⟩
  · exact ⟨.destructor "" .invalid .nonVirtual, rfl⟩
  · exact ⟨.accessSpecifier .invalid, rfl⟩
  · exact ⟨.cStyleCast type, rfl⟩
  · exact ⟨.notSupported "" 0, rfl⟩

theorem exists_tag_of_mem_allTags {t : String} (h : t ∈ allTags) : ∃ k : NodeKind, k.tag = t := by
  simp only [allTags, List.mem_append, mem_groupTags] at h
  rcases h with ((((((h | ⟨k, rfl⟩) | ⟨k, rfl⟩) | ⟨k, rfl⟩) | ⟨k, rfl⟩) | ⟨k, rfl⟩) | ⟨k, rfl⟩) | ⟨k, rfl⟩
  · exact exists_tag_of_mem_singleTags h
  · exact ⟨.plain k, rfl⟩
  · exact ⟨.named k "", rfl⟩
  · exact ⟨.quoted k "", rfl⟩
  · exact ⟨.record k "" .invalid false, rfl⟩
  · exact ⟨.scoped k "" .invalid, rfl⟩
  · exact ⟨.typed k "" (.notSupported 0), rfl⟩
  · exact ⟨.alias k "" (.notSupported 0) .invalid, rfl⟩

theorem order_perm_allTags : order.Perm allTags := by decide +kernel

theorem nodup_order : order.Nodup := by decide +kernel

/-- The order holds the tags of all kinds and nothing else. -/
theorem mem_order_iff (t : String) : t ∈ order ↔ ∃ k : NodeKind, k.tag = t := by
  rw [order_perm_allTags.mem_iff]
  exact ⟨exists_tag_of_mem_allTags, fun ⟨k, hk⟩ => hk ▸ k.tag_mem_allTags⟩

/-- The place of a tag in the order stands for the tag. -/
theorem tag?_idxOf (k : NodeKind) : tag? (.ofNat (order.idxOf k.tag)) = some k.tag := by
  have hmem : k.tag ∈ order := (mem_order_iff _).mpr ⟨k, rfl⟩
  simp [tag?, Json.ofNat, List.getElem?_idxOf hmem]

/-- The tag of a kind is its label. -/
theorem tag_eq_label : ∀ k : NodeKind, k.tag = k.label
  | .plain k => by cases k <;> rfl
  | .named k _ => by cases k <;> rfl
  | .quoted k _ => by cases k <;> rfl
  | .record k .. => by cases k <;> rfl
  | .scoped k .. => by cases k <;> rfl
  | .typed k .. => by cases k <;> rfl
  | .alias k .. => by cases k <;> rfl
  | .root | .field .. | .function .. | .method .. | .constructor .. | .destructor .. | .accessSpecifier _
  | .cStyleCast _ | .notSupported .. => rfl

/-- The keys of the data of a kind are different, and none is one that every node has for its own use. -/
theorem nodup_keys (k : NodeKind) : ("kind" :: k.fields.map Prod.fst ++ ["span", "children"]).Nodup := by
  cases k <;> simp [fields]

end NodeKind

/-! ## Optional fields -/

theorem Json.lookup_optional (k : String) (v : Option Json) (key : String) :
    (Json.optional k v).lookup key = if key = k then v else none := by
  cases v <;> simp [Json.optional, Table.lookup_cons]

theorem Json.lookup_optional_append (k : String) (v : Option Json) (fields : List (String × Json)) (key : String) :
    (Json.optional k v ++ fields).lookup key = if key = k then v.or (fields.lookup k) else fields.lookup key := by
  cases v with
  | none => by_cases h : key = k <;> simp [Json.optional, h]
  | some v => simp [Json.optional, Table.lookup_cons]

/-- A field that may be left out adds its own key at most. -/
theorem Json.keys_optional_sublist (key : String) (v : Option Json) :
    ((Json.optional key v).map Prod.fst).Sublist [key] := by
  cases v <;> simp [Json.optional]

/-- A field that was left out for `none` is read back if what is written for a value is not `null`. -/
theorem Json.optional?_of_lookup {α : Type} {fields : List (String × Json)} {key : String} {decode : Json → Option α}
    {e : α → Json} {a : Option α} (h : fields.lookup key = a.map e) (hnull : ∀ x, e x ≠ .null)
    (hdecode : ∀ x, decode (e x) = some x) : Json.optional? fields key decode = some a := by
  cases a with
  | none => simp [Json.optional?, h]
  | some x =>
    simp only [Option.map_some] at h
    rw [Json.optional?, h]
    split
    · contradiction
    · next heq => exact absurd (Option.some.inj heq) (hnull x)
    · next heq => rw [← Option.some.inj heq, hdecode, Option.map_some]

/-! ## Nodes -/

namespace Node

theorem toJsonAll_eq_map : ∀ ns : List Node, toJsonAll ns = ns.map toJson
  | [] => rfl
  | n :: ns => by rw [toJsonAll, toJsonAll_eq_map ns, List.map_cons]

theorem childrenIn?_eq (fields : List (String × Json)) :
    childrenIn? fields = match fields.lookup "children" with | none => some [] | some v => ofItems? v := by
  induction fields with
  | nil => rfl
  | cons field rest ih =>
    obtain ⟨key, v⟩ := field
    rw [childrenIn?, Table.lookup_cons]
    by_cases h : key = "children"
    · rw [if_pos h, if_pos h.symm]
    · rw [if_neg h, if_neg (Ne.symm h), ih]

/-- The fields of the object of a node. -/
def objFields (n : Node) : List (String × Json) :=
  ("kind", .str n.kind.tag) :: n.kind.fields ++ Json.optional "span" (n.span.map Span.toJson) ++
    listField "children" (n.children.map toJson)

theorem toJson_eq_obj : ∀ n : Node, n.toJson = .obj n.objFields
  | mk kind span children => by rw [toJson, toJsonAll_eq_map]; rfl

/-- The keys of a node are its kind's and some of `span` and `children`, so they are different. -/
theorem keys_sublist (n : Node) :
    (n.objFields.map Prod.fst).Sublist ("kind" :: n.kind.fields.map Prod.fst ++ ["span", "children"]) := by
  have hspan := Json.keys_optional_sublist "span" (n.span.map Span.toJson)
  have hchildren : ((listField "children" (n.children.map toJson)).map Prod.fst).Sublist ["children"] := by
    cases n.children <;> simp [listField]
  have h := ((List.Sublist.refl ("kind" :: n.kind.fields.map Prod.fst)).append hspan).append hchildren
  simpa [objFields] using h

theorem nodup_keys (n : Node) : (n.objFields.map Prod.fst).Nodup :=
  (NodeKind.nodup_keys n.kind).sublist n.keys_sublist

/-- No kind has data under the keys that nodes have for their own use. -/
theorem lookup_kindFields (k : NodeKind) (v : Json) {key : String} (h : key = "span" ∨ key = "children") :
    (("kind", v) :: k.fields).lookup key = none := by
  have hn := NodeKind.nodup_keys k
  rw [List.cons_append, ← List.cons_append, List.nodup_append] at hn
  rw [List.lookup_eq_none_iff]
  intro field hfield
  have hne := hn.2.2 field.1 (List.mem_map_of_mem hfield) key (by simpa using h)
  simpa using fun h' => hne h'.symm

theorem lookup_span (n : Node) : n.objFields.lookup "span" = n.span.map Span.toJson := by
  have h : (listField "children" (n.children.map toJson)).lookup "span" = none := by
    cases n.children <;> simp [listField]
  rw [objFields, List.lookup_append, List.lookup_append, lookup_kindFields _ _ (.inl rfl), Json.lookup_optional,
    if_pos rfl, h]
  cases n.span <;> rfl

theorem lookup_children (n : Node) :
    n.objFields.lookup "children" = if n.children = [] then none else some (.arr (n.children.map toJson)) := by
  rw [objFields, List.lookup_append, List.lookup_append, lookup_kindFields _ _ (.inr rfl), Json.lookup_optional]
  cases n.children <;> simp [listField]

/-- The data of the kind stand in the object under their own keys. -/
theorem lookup_data (n : Node) {key : String} {v : Json} (h : (key, v) ∈ n.kind.fields) :
    n.objFields.lookup key = some v :=
  Table.lookup_of_mem n.nodup_keys (by simp [objFields, h])

mutual
/-- **A tree of any depth is read back from its value.** -/
theorem ofJson?_toJson : ∀ n : Node, ofJson? n.toJson = some n
  | mk kind span children => by
    have hkind : NodeKind.ofFields? kind.tag (mk kind span children).objFields = some kind := by
      rw [objFields, List.append_assoc]
      exact NodeKind.ofFields?_fields kind _
    have hspan : Json.optional? (mk kind span children).objFields "span" Span.ofJson? = some span :=
      Json.optional?_of_lookup (lookup_span _) (fun _ => nofun) Span.ofJson?_toJson
    have hchildren : childrenIn? (mk kind span children).objFields = some children := by
      rw [childrenIn?_eq, lookup_children]
      cases children with
      | nil => rfl
      | cons c cs => simpa [ofItems?, toJsonAll_eq_map] using ofJsonAll?_toJsonAll (c :: cs)
    have htag : Json.required? (mk kind span children).objFields "kind" NodeKind.tag? = some kind.tag := by
      simp [objFields, Json.required?_cons, NodeKind.tag?]
    rw [toJson_eq_obj, ofJson?, htag]
    simp only [Option.bind_eq_bind, Option.bind_some, hkind, hspan, hchildren]
    rfl

theorem ofJsonAll?_toJsonAll : ∀ ns : List Node, ofJsonAll? (toJsonAll ns) = some ns
  | [] => rfl
  | n :: ns => by
    rw [toJsonAll, ofJsonAll?, ofJson?_toJson n, ofJsonAll?_toJsonAll ns]
    rfl
end

/-- The object holds the label under `kind`, the data of the kind, the span and the children, all side by side under
different keys, and nothing else. The span is missing exactly if there is none, and so are the children. -/
structure FlatIn (n : Node) (fields : List (String × Json)) : Prop where
  nodup : (fields.map Prod.fst).Nodup
  kind : fields.lookup "kind" = some (.str n.label)
  data : ∀ key v, (key, v) ∈ n.kind.fields → fields.lookup key = some v
  span : fields.lookup "span" = n.span.map Span.toJson
  children : fields.lookup "children" = if n.children = [] then none else some (.arr (n.children.map toJson))
  only : ∀ key ∈ fields.map Prod.fst, key ∈ "kind" :: n.kind.fields.map Prod.fst ++ ["span", "children"]

theorem flatIn_objFields (n : Node) : n.FlatIn n.objFields where
  nodup := n.nodup_keys
  kind := by simp [objFields, label, NodeKind.tag_eq_label]
  data _ _ h := n.lookup_data h
  span := n.lookup_span
  children := n.lookup_children
  only _ h := n.keys_sublist.mem h

end Node

/-! ## Diagnostics and files -/

theorem Diagnostic.ofJson?_obj (fields : List (String × Json)) : Diagnostic.ofJson? (.obj fields) =
    (Json.required? fields "severity" (Json.labelled? false)).bind fun severity =>
      (Json.required? fields "message" Json.text?).bind fun message =>
        (Json.optional? fields "position" Position.ofJson?).bind fun position =>
          some ⟨severity, message, position⟩ := rfl

theorem Diagnostic.lookup_position (d : Diagnostic) :
    ([("severity", Labelled.toJson d.severity), ("message", .str d.message)] ++
      Json.optional "position" (d.position.map Position.toJson)).lookup "position" =
        d.position.map Position.toJson := by
  simp [Json.lookup_optional, Table.lookup_cons]

theorem Diagnostic.ofJson?_toJson (d : Diagnostic) : Diagnostic.ofJson? d.toJson = some d := by
  rw [Diagnostic.toJson, Diagnostic.ofJson?_obj,
    Json.optional?_of_lookup d.lookup_position (fun _ => nofun) Position.ofJson?_toJson]
  simp [Json.required?_cons, Json.text?]

namespace ParsedFile

theorem ofJson?_obj (fields : List (String × Json)) : ofJson? (.obj fields) =
    (Json.required? fields "file_name" Json.text?).bind fun fileName =>
      (Json.required? fields "ast" Node.ofJson?).bind fun tree =>
        (Json.required? fields "diagnostics" diagnosticsOfJson?).bind fun diagnostics =>
          some ⟨fileName, tree, diagnostics⟩ := rfl

theorem diagnosticsOfJson?_map (ds : List Diagnostic) :
    diagnosticsOfJson? (.arr (ds.map Diagnostic.toJson)) = some ds := by
  rw [diagnosticsOfJson?]
  induction ds with
  | nil => rfl
  | cons d ds ih => simp [Diagnostic.ofJson?_toJson, ih]

theorem ofJson?_toJson (f : ParsedFile) : ofJson? f.toJson = some f := by
  rw [toJson, ofJson?_obj]
  simp [Json.required?_cons, Json.text?, Node.ofJson?_toJson, diagnosticsOfJson?_map]

/-- **Decoding undoes encoding**: every parsed file, whatever its name, its tree and its diagnostics, is read back from
its value. In that value each node is one flat object (`Node.FlatIn`), and the position of a diagnostic is left out
exactly if there is none. -/
theorem decodes_flat_encoding :
    (∀ f : ParsedFile, ofJson? f.toJson = some f) ∧
    (∀ n : Node, ∃ fields, n.toJson = .obj fields ∧ n.FlatIn fields) ∧
    (∀ d : Diagnostic, ∃ fields, d.toJson = .obj fields ∧ fields.lookup "position" = d.position.map Position.toJson) :=
  ⟨ofJson?_toJson, fun n => ⟨_, n.toJson_eq_obj, n.flatIn_objFields⟩, fun d => ⟨_, rfl, d.lookup_position⟩⟩

end ParsedFile

end SyntaxView
