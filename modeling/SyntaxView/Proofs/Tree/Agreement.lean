import SyntaxView.Proofs.Tree.Order
import SyntaxView.Proofs.Tree.Stream
import SyntaxView.Tree.Render

/-!
# The forms of a tree agree

A tree can be shown in three ways: as indented text, as lines of JSON and as one JSON document. All three show the same
nodes in the same order.

- Indented text goes over the whole walk and leaves out what is too deep; lines of JSON do not go below the limit in the
  first place. The tree cut below the limit has the nodes of the walk that are not too deep (`facts_cut`), so both show
  the same nodes under every limit (`render_agrees_with_lines`).
- The objects of the document, each before those under its key `children`, are the values of the nodes in preorder
  (`Node.objects_toJson`). What an object says of its node is what the line of the node says
  (`document_agrees_with_lines`): the label is the tag by which a kind is read, and the kinds with a name are those with
  a field for it (`NodeKind.ofFields?_iff_label`, `NodeKind.name?_eq_field`).
-/

namespace SyntaxView

/-! ## Indented text and lines -/

/-- What a call adds to the text of a stream. -/
theorem LineStream.written_of_write {s t : LineStream} {limit : Option Nat} {n : Node}
    (h : s.write limit n = (.ok (), t)) : t.sink.written =
      s.sink.written ++ String.join (((n.cut limit).numbered 0 none s.nextId).map NodeLine.text) := by
  apply String.ext
  rw [(write_ok h).2, String.toList_append, String.toList_join, List.flatMap_map]

namespace Node

/-- Depth, label and name of a node. -/
def facts (m : Nat × Node) : Nat × String × Option String := (m.1, m.2.label, m.2.name?)

/-- The nodes of the lines of indented text. -/
def rendered (limit : Option Nat) (n : Node) : List (Nat × Node) := n.walk.filter fun m => withinDepth limit m.1

theorem render_eq_join (limit : Option Nat) (n : Node) :
    n.render limit = String.join ((n.rendered limit).map fun m => renderLine m.1 m.2) := rfl

theorem withinDepth_iff (limit : Option Nat) (d : Nat) : withinDepth limit d = true ↔ ∀ most ∈ limit, d ≤ most := by
  cases limit <;> simp [withinDepth]

mutual
theorem le_depth_of_mem_preorderFrom : ∀ {d : Nat} {n : Node} {m : Nat × Node}, m ∈ preorderFrom d n → d ≤ m.1
  | d, mk kind span children, m, h => by
    rw [preorderFrom] at h
    rcases List.mem_cons.1 h with rfl | h
    · exact Nat.le_refl d
    · have := le_depth_of_mem_preorderAll h
      omega

theorem le_depth_of_mem_preorderAll : ∀ {d : Nat} {ns : List Node} {m : Nat × Node}, m ∈ preorderAll d ns → d ≤ m.1
  | _, [], _, h => by cases h
  | d, n :: ns, m, h => by
    rw [preorderAll] at h
    rcases List.mem_append.1 h with h | h
    · exact le_depth_of_mem_preorderFrom h
    · exact le_depth_of_mem_preorderAll h
end

/-- Below the limit nothing is left. -/
theorem filter_preorderAll_of_lt {most d : Nat} (h : most < d) (ns : List Node) :
    (preorderAll d ns).filter (fun m => withinDepth (some most) m.1) = [] := by
  rw [List.filter_eq_nil_iff]
  intro m hm hin
  have hle := le_depth_of_mem_preorderAll hm
  have hmost := (withinDepth_iff _ _).1 hin most rfl
  omega

mutual
/-- A tree cut below a limit has the nodes of the whole tree that are not below it. -/
theorem facts_cut (limit : Option Nat) : ∀ {d : Nat} (n : Node), (∀ most ∈ limit, d ≤ most) →
    (preorderFrom d (n.cut (limit.map (· - d)))).map facts =
      ((preorderFrom d n).filter fun m => withinDepth limit m.1).map facts
  | d, mk kind span children, hd => by
    have hhead : withinDepth limit (d, mk kind span children).1 = true := (withinDepth_iff limit d).2 hd
    rw [cut, preorderFrom, preorderFrom, List.filter_cons, if_pos hhead, List.map_cons, List.map_cons]
    congr 1
    -- The children are cut off exactly at the limit, where all of them are too deep.
    by_cases hlimit : limit.map (· - d) = some 0
    · obtain ⟨most, rfl, hmost⟩ := Option.map_eq_some_iff.1 hlimit
      rw [if_pos hlimit, preorderAll, filter_preorderAll_of_lt (by omega) children]
    · have hstep : (limit.map (· - d)).map (· - 1) = limit.map (· - (d + 1)) := by
        cases limit <;> simp; omega
      rw [if_neg hlimit, hstep]
      refine facts_cutAll limit children fun most hmost => ?_
      have hle := hd most hmost
      cases hmost
      simp only [Option.map_some, Option.some.injEq] at hlimit
      omega

theorem facts_cutAll (limit : Option Nat) : ∀ {d : Nat} (ns : List Node), (∀ most ∈ limit, d ≤ most) →
    (preorderAll d (cutAll (limit.map (· - d)) ns)).map facts =
      ((preorderAll d ns).filter fun m => withinDepth limit m.1).map facts
  | _, [], _ => rfl
  | d, n :: ns, hd => by
    rw [cutAll, preorderAll, preorderAll, List.filter_append, List.map_append, List.map_append, facts_cut limit n hd,
      facts_cutAll limit ns hd]
end

/-- The nodes of the indented text are those of the preorder down to the limit. -/
theorem rendered_eq_filter (limit : Option Nat) (n : Node) :
    n.rendered limit = n.preorder.filter fun m => limit.all fun most => decide (m.1 ≤ most) := by
  rw [rendered, walk_eq_preorder]
  refine List.filter_congr fun m _ => ?_
  cases limit with
  | none => rfl
  | some most => rfl

/-- What lines tell of their nodes alone, whatever their numbers, is told by the nodes. -/
theorem map_eq_of_shows {α : Type} {ls : List NodeLine} {ms : List (Nat × Node)} (h : List.Forall₂ Shows ls ms)
    {f : NodeLine → α} {g : Nat × Node → α} (hfg : ∀ m id parent, f (.ofNode m.2 m.1 id parent) = g m) :
    ls.map f = ms.map g := by
  induction h with
  | nil => rfl
  | cons hl _ ih => rw [List.map_cons, List.map_cons, ih, hl, hfg]

/-- **Indented text and lines show the same nodes.** Under every limit, the nodes of the indented text are those of the
preorder that are not too deep, and a tree that is written without a failure, whatever the stream held before, adds
lines that tell depth, label and name of these nodes. On a sink that never fails every tree is written without a
failure. -/
theorem render_agrees_with_lines (n : Node) (limit : Option Nat) :
    (n.render limit = String.join ((n.rendered limit).map fun m => renderLine m.1 m.2) ∧
      n.rendered limit = n.preorder.filter fun m => limit.all fun most => decide (m.1 ≤ most)) ∧
    (∀ s t : LineStream, s.write limit n = (.ok (), t) → ∃ lines : List NodeLine,
      t.sink.written = s.sink.written ++ String.join (lines.map NodeLine.text) ∧
      lines.map (fun l => (l.depth, l.kind, l.name)) = (n.rendered limit).map fun m => (m.1, m.2.label, m.2.name?)) ∧
    ∀ s : LineStream, s.sink.NeverFails → ∃ t, s.write limit n = (.ok (), t) := by
  refine ⟨⟨render_eq_join limit n, rendered_eq_filter limit n⟩, fun s t h => ?_, fun s h => ?_⟩
  · refine ⟨_, LineStream.written_of_write h, ?_⟩
    have hcut : (n.cut limit).preorder.map facts = (n.rendered limit).map facts := by
      have h := facts_cut limit (d := 0) n fun most _ => Nat.zero_le most
      have hlimit : limit.map (· - 0) = limit := by cases limit <;> rfl
      rwa [hlimit, ← preorder, ← preorder, ← walk_eq_preorder n] at h
    rw [map_eq_of_shows (g := facts) (numbered_nodes 0 none s.nextId (n.cut limit)) fun _ _ _ => rfl]
    exact hcut
  · obtain ⟨t, ht, -⟩ := LineStream.write_neverFails h limit n
    exact ⟨t, ht⟩

/-- A tree of three levels, with a name, the text of a literal and a span. -/
def sampleTree : Node :=
  .root
    [.mk (.named .namespaceDecl "outer") none [.mk (.plain .nullStatement) none []],
     .mk (.quoted .stringLiteral "text") (some ⟨⟨"a.h", 1, 2⟩, ⟨"a.h", 3, 4⟩⟩) []]

theorem sampleTree_shown_alike : ∃ (t : LineStream) (lines : List NodeLine),
    (LineStream.ofSink .reliable).write (some 1) sampleTree = (.ok (), t) ∧
    t.sink.written = String.join (lines.map NodeLine.text) ∧
    lines.map (fun l => (l.depth, l.kind, l.name)) =
      [(0, "Root", none), (1, "Namespace", some "outer"), (1, "StringLiteral", some "text")] := by
  obtain ⟨⟨-, hfilter⟩, hlines, hok⟩ := render_agrees_with_lines sampleTree (some 1)
  obtain ⟨t, ht⟩ := hok (.ofSink .reliable) Sink.neverFails_reliable
  obtain ⟨lines, htext, hfacts⟩ := hlines _ t ht
  refine ⟨t, lines, ht, htext.trans String.empty_append, ?_⟩
  rw [hfacts, hfilter]
  rfl

end Node

/-! ## Documents and lines -/

namespace Json

mutual
/-- The objects of a document, each before those in the array under its key `children`. -/
def objects : Json → List Json
  | .obj fields => .obj fields :: objectsBelow fields
  | _ => []
termination_by structural v => v

/-- The objects under the key `children`. -/
def objectsBelow : List (String × Json) → List Json
  | [] => []
  | (key, v) :: rest => if key = "children" then objectsOf v else objectsBelow rest
termination_by structural l => l

def objectsOf : Json → List Json
  | .arr items => objectsAll items
  | _ => []
termination_by structural v => v

def objectsAll : List Json → List Json
  | [] => []
  | v :: rest => objects v ++ objectsAll rest
termination_by structural l => l
end

theorem objectsBelow_eq (fields : List (String × Json)) :
    objectsBelow fields = match fields.lookup "children" with | none => [] | some v => objectsOf v := by
  induction fields with
  | nil => rfl
  | cons field rest ih =>
    obtain ⟨key, v⟩ := field
    rw [objectsBelow, Table.lookup_cons]
    by_cases h : key = "children"
    · rw [if_pos h, if_pos h.symm]
    · rw [if_neg h, if_neg (Ne.symm h), ih]

/-- What is said of a node: its label, its name, where it starts and where it ends. -/
structure Facts where
  kind : Option Json
  name : Option Json
  start : Option Json
  stop : Option Json

/-- What an object of a document says. A literal has its text in the place of a name. -/
def documentFacts (v : Json) : Facts where
  kind := v.field? "kind"
  name := (v.field? "name").or (v.field? "value")
  start := (v.field? "span").bind (field? "start_pos")
  stop := (v.field? "span").bind (field? "end_pos")

/-- What the object of a line says. -/
def lineFacts (v : Json) : Facts where
  kind := v.field? "kind"
  name := v.field? "name"
  start := v.field? "start"
  stop := v.field? "end"

end Json

namespace NodeKind

/-- The name is what stands in the data of the kind under `name` or else under `value`. -/
theorem name?_eq_field (k : NodeKind) :
    k.name?.map Json.str = (k.fields.lookup "name").or (k.fields.lookup "value") := by
  cases k <;> simp [name?, fields, Table.lookup_cons]

theorem name?_isSome_iff (k : NodeKind) :
    k.name?.isSome = true ↔ "name" ∈ k.fields.map Prod.fst ∨ "value" ∈ k.fields.map Prod.fst := by
  cases k <;> simp [name?, fields]

theorem label_of_ofLabel? {α : Type} [Labelled α] {tag : String} {a : α} (h : Labelled.ofLabel? tag = some a) :
    Labelled.label a = tag := by
  have := List.find?_some h
  simpa using this

theorem tag_of_groupOfFields? {tag : String} {fs : List (String × Json)} {k : NodeKind}
    (h : groupOfFields? tag fs = some k) : k.tag = tag := by
  simp only [groupOfFields?, Option.orElse_eq_orElse, Option.orElse_eq_or, Option.or_eq_some_iff,
    Option.map_eq_some_iff, Option.bind_eq_bind, Option.bind_eq_some_iff, Option.pure_def, Option.some.injEq] at h
  rcases h with ⟨a, ha, rfl⟩ | ⟨-, ⟨a, ha, _, -, rfl⟩ | ⟨-, ⟨a, ha, _, -, rfl⟩ | ⟨-, ⟨a, ha, _, -, _, -, _, -, rfl⟩ |
    ⟨-, ⟨a, ha, _, -, _, -, rfl⟩ | ⟨-, ⟨a, ha, _, -, _, -, rfl⟩ | ⟨-, a, ha, _, -, _, -, _, -, rfl⟩⟩⟩⟩⟩⟩
  all_goals exact label_of_ofLabel? ha

/-- A kind is read by its own tag only. -/
theorem tag_of_ofFields? {tag : String} {fs : List (String × Json)} {k : NodeKind} (h : ofFields? tag fs = some k) :
    k.tag = tag := by
  unfold ofFields? at h
  split at h
  case h_10 => exact tag_of_groupOfFields? h
  all_goals
    simp only [Option.bind_eq_bind, Option.bind_eq_some_iff, Option.pure_def, Option.some.injEq] at h
  case h_1 => rw [← h]; rfl
  case h_2 => obtain ⟨_, -, _, -, _, -, rfl⟩ := h; rfl
  case h_3 => obtain ⟨_, -, _, -, _, -, _, -, _, -, rfl⟩ := h; rfl
  case h_4 => obtain ⟨_, -, _, -, _, -, _, -, _, -, _, -, _, -, _, -, rfl⟩ := h; rfl
  case h_5 => obtain ⟨_, -, _, -, _, -, rfl⟩ := h; rfl
  case h_6 => obtain ⟨_, -, _, -, _, -, rfl⟩ := h; rfl
  case h_7 => obtain ⟨_, -, rfl⟩ := h; rfl
  case h_8 => obtain ⟨_, -, rfl⟩ := h; rfl
  case h_9 => obtain ⟨_, -, _, -, rfl⟩ := h; rfl

/-- **The label of a kind is the tag by which it is read**, and the only one. -/
theorem ofFields?_iff_label (k : NodeKind) (tag : String) : (∃ fs, ofFields? tag fs = some k) ↔ tag = k.label := by
  rw [← tag_eq_label]
  constructor
  · rintro ⟨fs, h⟩
    exact (tag_of_ofFields? h).symm
  · rintro rfl
    exact ⟨_, ofFields?_fields k []⟩

end NodeKind

namespace Node

mutual
/-- The objects of the document of a tree are the values of its nodes in preorder. -/
theorem objects_toJson : ∀ (d : Nat) (n : Node), n.toJson.objects = (n.preorderFrom d).map fun m => m.2.toJson
  | d, mk kind span children => by
    have hbelow : Json.objectsBelow (mk kind span children).objFields =
        (preorderAll (d + 1) children).map fun m => m.2.toJson := by
      rw [Json.objectsBelow_eq, lookup_children, children_mk, ← objectsAll_toJson (d + 1) children]
      cases children with
      | nil => rfl
      | cons c cs => rfl
    rw [preorderFrom, List.map_cons, ← hbelow, toJson_eq_obj, Json.objects]

theorem objectsAll_toJson : ∀ (d : Nat) (ns : List Node),
    Json.objectsAll (ns.map toJson) = (preorderAll d ns).map fun m => m.2.toJson
  | _, [] => rfl
  | d, n :: ns => by
    rw [List.map_cons, Json.objectsAll, preorderAll, List.map_append, objects_toJson d n, objectsAll_toJson d ns]
end

/-- Under a key that is no node's own, the object of a node has what the data of its kind have. -/
theorem field?_toJson (n : Node) {key : String} (h : key ∉ ["kind", "span", "children"]) :
    n.toJson.field? key = n.kind.fields.lookup key := by
  simp only [List.mem_cons, List.not_mem_nil, or_false, not_or] at h
  have hchildren : (listField "children" (n.children.map toJson)).lookup key = none := by
    cases n.children <;> simp [listField, Table.lookup_cons, h]
  rw [toJson_eq_obj, Json.field?, objFields, List.lookup_append, hchildren, Option.or_none, List.lookup_append,
    Json.lookup_optional, if_neg h.2.1, Option.or_none, Table.lookup_cons, if_neg h.1]

/-- What the object of a node says of it. -/
theorem documentFacts_toJson (n : Node) : n.toJson.documentFacts =
    ⟨some (.str n.label), n.name?.map .str, n.span.map fun s => s.start.toJson, n.span.map fun s => s.stop.toJson⟩ := by
  have hkind : n.toJson.field? "kind" = some (.str n.label) := by
    rw [toJson_eq_obj]
    exact n.flatIn_objFields.kind
  have hspan : n.toJson.field? "span" = n.span.map Span.toJson := by
    rw [toJson_eq_obj]
    exact n.lookup_span
  have hname : (n.toJson.field? "name").or (n.toJson.field? "value") = n.name?.map .str := by
    rw [n.field?_toJson (by decide), n.field?_toJson (by decide), ← NodeKind.name?_eq_field, name?]
  rw [Json.documentFacts, hkind, hspan, hname]
  cases n.span <;> rfl

end Node

/-- What the line of a node says of it. -/
theorem NodeLine.lineFacts_toJson (l : NodeLine) : l.toJson.lineFacts =
    ⟨some (.str l.kind), l.name.map .str, l.start.map Position.toJson, l.stop.map Position.toJson⟩ := by
  rw [toJson_eq_obj, Json.lineFacts, Json.Facts.mk.injEq]
  simp [Json.field?, objFields, Table.lookup_cons, Json.lookup_optional_append, Json.lookup_optional]

namespace Node

mutual
/-- Without a limit nothing is cut off. -/
theorem cut_none : ∀ n : Node, n.cut none = n
  | mk kind span children => by
    rw [cut, if_neg (by simp), Option.map_none, cutAll_none children]

theorem cutAll_none : ∀ ns : List Node, cutAll none ns = ns
  | [] => rfl
  | n :: ns => by rw [cutAll, cut_none n, cutAll_none ns]
end

/-- **The document of a tree and its lines say the same, node by node.** Whenever a whole tree is written to a stream
without a failure, the objects of the document, each before those under its key `children`, say of label, name, start
and end what the objects of the lines say, and leave out what these leave out. This rests on two agreements between
tables: the label of a kind is the one tag by which its data are read, and the kinds with a name are those whose data
have a field `name` or `value`. -/
theorem document_agrees_with_lines :
    (∀ (n : Node) (s t : LineStream), s.write none n = (.ok (), t) → ∃ lines : List NodeLine,
      t.sink.written = s.sink.written ++ String.join (lines.map NodeLine.text) ∧
      n.toJson.objects.map Json.documentFacts = lines.map fun l => l.toJson.lineFacts) ∧
    (∀ (n : Node) (s : LineStream), s.sink.NeverFails → ∃ t, s.write none n = (.ok (), t)) ∧
    (∀ (k : NodeKind) (tag : String), (∃ fs, NodeKind.ofFields? tag fs = some k) ↔ tag = k.label) ∧
    ∀ k : NodeKind, k.name?.isSome = true ↔ "name" ∈ k.fields.map Prod.fst ∨ "value" ∈ k.fields.map Prod.fst := by
  refine ⟨fun n s t h => ⟨_, LineStream.written_of_write h, ?_⟩, fun n s h => ?_, NodeKind.ofFields?_iff_label,
    NodeKind.name?_isSome_iff⟩
  · rw [cut_none, objects_toJson 0 n, List.map_map]
    refine (map_eq_of_shows (numbered_nodes 0 none s.nextId n) fun m id parent => ?_).symm
    rw [NodeLine.lineFacts_toJson, Function.comp_apply, documentFacts_toJson]
    simp only [NodeLine.ofNode, Option.map_map, Function.comp_def]
  · obtain ⟨t, ht, -⟩ := LineStream.write_neverFails h none n
    exact ⟨t, ht⟩

theorem sampleTree_document_agrees : ∃ (t : LineStream) (lines : List NodeLine),
    (LineStream.ofSink .reliable).write none sampleTree = (.ok (), t) ∧
    t.sink.written = String.join (lines.map NodeLine.text) ∧
    lines.map (fun l => l.toJson.lineFacts) =
      [⟨some (.str "Root"), none, none, none⟩, ⟨some (.str "Namespace"), some (.str "outer"), none, none⟩,
       ⟨some (.str "NullStatement"), none, none, none⟩,
       ⟨some (.str "StringLiteral"), some (.str "text"), some (Position.toJson ⟨"a.h", 1, 2⟩),
        some (Position.toJson ⟨"a.h", 3, 4⟩)⟩] := by
  obtain ⟨hlines, hok, -⟩ := document_agrees_with_lines
  obtain ⟨t, ht⟩ := hok sampleTree (.ofSink .reliable) Sink.neverFails_reliable
  obtain ⟨lines, htext, hfacts⟩ := hlines sampleTree _ t ht
  exact ⟨t, lines, ht, htext.trans String.empty_append, hfacts.symm⟩

end Node

end SyntaxView
