import SyntaxView.Proofs.Json.Text
import SyntaxView.Proofs.Tree.Json
import SyntaxView.Proofs.Tree.Numbering

/-!
# Streams of lines

The text of a stream holds the trees written to it. `Writes s calls t` says that the calls of `LineStream.write`, each
with its limit and its tree, lead from `s` to `t` without a failure; the lines they write, call by call, are
`LineStream.blocks`.

- The text is these lines and nothing else, each ended by a newline and without one inside (`Writes.text`,
  `NodeLine.newline_not_mem`), and each is read back from its text (`NodeLine.parse_compact`), so that the lines can be
  told from the text alone (`readLines?_text`).
- The trees can be told from the lines alone: `rebuild` goes from the last line to the first and gives each line the
  trees after it that name it as their parent (`rebuild_blocks`).
-/

namespace SyntaxView

/-! ## Rebuilding trees from lines -/

/-- What lines tell of a tree. -/
inductive Outline where
  | mk (label : String) (name : Option String) (start stop : Option Position) (children : List Outline)
  deriving Repr

namespace Node

mutual
def outline : Node → Outline
  | mk kind span children =>
    .mk kind.label kind.name? (span.map Span.start) (span.map Span.stop) (outlineAll children)
termination_by structural n => n

def outlineAll : List Node → List Outline
  | [] => []
  | n :: ns => outline n :: outlineAll ns
termination_by structural l => l
end

theorem outlineAll_eq_map (ns : List Node) : outlineAll ns = ns.map outline := by
  induction ns with
  | nil => rfl
  | cons n ns ih => rw [outlineAll, ih, List.map_cons]

end Node

/-- The trees of the lines, each with the number of the parent that is still to come. -/
def rebuild : List NodeLine → List (Option Nat × Outline)
  | [] => []
  | l :: ls =>
    let trees := rebuild ls
    let own := trees.filter fun t => t.1 = some l.id
    (l.parent, .mk l.kind l.name l.start l.stop (own.map Prod.snd)) :: trees.filter fun t => t.1 ≠ some l.id

/-- The parents still to come have numbers below this one. -/
def AwaitBelow (id : Nat) (trees : List (Option Nat × Outline)) : Prop := ∀ t ∈ trees, ∀ p, t.1 = some p → p < id

theorem AwaitBelow.mono {id id' : Nat} {trees : List (Option Nat × Outline)} (h : AwaitBelow id trees)
    (hle : id ≤ id') : AwaitBelow id' trees := fun t ht p hp => Nat.lt_of_lt_of_le (h t ht p hp) hle

/-- A line takes the trees that wait for it and leaves those that wait for earlier ones. -/
theorem rebuild_cons {l : NodeLine} {ls : List NodeLine} {own : List Outline} {others : List (Option Nat × Outline)}
    (h : rebuild ls = own.map (some l.id, ·) ++ others) (ho : AwaitBelow l.id others) :
    rebuild (l :: ls) = (l.parent, .mk l.kind l.name l.start l.stop own) :: others := by
  have hothers : ∀ t ∈ others, t.1 ≠ some l.id := fun t ht e => Nat.lt_irrefl _ (ho t ht l.id e)
  have hown : others.filter (fun t => t.1 = some l.id) = [] := by simpa using hothers
  have hrest : others.filter (fun t => t.1 ≠ some l.id) = others := by simpa using hothers
  rw [rebuild, h]
  simp only [List.filter_append, hown, hrest]
  simp [List.filter_map, Function.comp_def]

namespace Node

mutual
/-- The lines of a tree are rebuilt into the tree, and what follows them into what it is rebuilt into alone. -/
theorem rebuild_numbered : ∀ {depth : Nat} {parent : Option Nat} {id : Nat} (n : Node) {rest : List NodeLine},
    AwaitBelow id (rebuild rest) → rebuild (numbered depth parent id n ++ rest) = (parent, n.outline) :: rebuild rest
  | depth, parent, id, mk kind span children, rest, hrest => by
    have hchildren : rebuild (numberedAll (depth + 1) (some id) (id + 1) children ++ rest) = _ :=
      rebuild_numberedAll children (fun p hp => by cases hp; exact Nat.lt_succ_self id) (hrest.mono (Nat.le_succ id))
    rw [numbered, List.cons_append, outline, NodeLine.ofNode_mk, outlineAll_eq_map]
    refine rebuild_cons ?_ hrest
    rw [hchildren, List.map_map]
    rfl

theorem rebuild_numberedAll : ∀ {depth : Nat} {parent : Option Nat} {id : Nat} (ns : List Node) {rest : List NodeLine},
    (∀ p, parent = some p → p < id) → AwaitBelow id (rebuild rest) →
      rebuild (numberedAll depth parent id ns ++ rest) = ns.map (parent, ·.outline) ++ rebuild rest
  | _, _, _, [], rest, _, _ => rfl
  | depth, parent, id, n :: ns, rest, hparent, hrest => by
    have hle : id ≤ id + n.size := Nat.le_add_right id n.size
    have hns : rebuild (numberedAll depth parent (id + n.size) ns ++ rest) =
        ns.map (parent, ·.outline) ++ rebuild rest :=
      rebuild_numberedAll ns (fun p hp => Nat.lt_of_lt_of_le (hparent p hp) hle) (hrest.mono hle)
    have hbelow : AwaitBelow id (rebuild (numberedAll depth parent (id + n.size) ns ++ rest)) := by
      rw [hns]
      intro t ht p hp
      rcases List.mem_append.1 ht with ht | ht
      · obtain ⟨m, -, rfl⟩ := List.mem_map.1 ht
        exact hparent p hp
      · exact hrest t ht p hp
    rw [numberedAll, List.append_assoc, rebuild_numbered n hbelow, hns]
    rfl
end

/-! ## The place of a line -/

/-- The lines stand in the order of their numbers. -/
theorem numbered_pairwise (depth : Nat) (parent : Option Nat) (id : Nat) (n : Node) :
    (numbered depth parent id n).Pairwise fun l m => l.id < m.id := by
  have h : ((numbered depth parent id n).map NodeLine.id).Pairwise (· < ·) := by
    rw [numbered_ids]
    exact List.pairwise_lt_range'
  exact List.pairwise_map.1 h

/-- Among the lines of a tree exactly the first has no parent; the others name a line before them, a step further up. -/
theorem parent_of_numbered {id : Nat} {n : Node} {l : NodeLine} {before after : List NodeLine}
    (h : numbered 0 none id n = before ++ l :: after) :
    (l.parent = none ↔ before = []) ∧ ∀ p, l.parent = some p → ∃ m ∈ before, m.id = p ∧ m.depth + 1 = l.depth := by
  have hsorted := numbered_pairwise 0 none id n
  rw [h, List.pairwise_append] at hsorted
  obtain ⟨-, hafter, hbefore⟩ := hsorted
  have hl : l ∈ numbered 0 none id n := by rw [h]; simp
  cases before with
  | nil =>
    have hfirst : l = .ofNode n 0 id none := by
      rw [numbered_eq_cons] at h
      exact (List.cons.inj h).1.symm
    subst hfirst
    exact ⟨⟨fun _ => rfl, fun _ => rfl⟩, fun p hp => nomatch hp⟩
  | cons first before =>
    have hfirst : first = .ofNode n 0 id none := by
      rw [numbered_eq_cons] at h
      exact (List.cons.inj h).1.symm
    have hlinked : Linked (numbered 0 none id n) l := by
      rcases linked_of_mem_numbered hl with rfl | hlinked
      · have hlt := hbefore first List.mem_cons_self _ List.mem_cons_self
        rw [hfirst] at hlt
        exact absurd hlt (Nat.lt_irrefl _)
      · exact hlinked
    obtain ⟨m, hm, hp, hlt, hd⟩ := hlinked
    have hmem : m ∈ first :: before := by
      rw [h] at hm
      rcases List.mem_append.1 hm with hm | hm
      · exact hm
      rcases List.mem_cons.1 hm with rfl | hm
      · exact absurd hlt (Nat.lt_irrefl _)
      · exact absurd (List.rel_of_pairwise_cons hafter hm) (Nat.lt_asymm hlt)
    refine ⟨by simp [hp], fun p hp' => ⟨m, hmem, ?_, hd⟩⟩
    exact Option.some.inj (hp.symm.trans hp')

/-- No line is deeper than its number. -/
theorem depth_le_id {id : Nat} {n : Node} : ∀ {l : NodeLine}, l ∈ numbered 0 none id n → l.depth ≤ l.id := by
  intro l
  induction hn : l.id using Nat.strongRecOn generalizing l with
  | _ k ih =>
    intro hl
    rcases linked_of_mem_numbered hl with rfl | ⟨m, hm, -, hlt, hd⟩
    · exact Nat.zero_le _
    · have := ih m.id (hn ▸ hlt) rfl hm
      omega

end Node

/-! ## Reading a line -/

namespace NodeLine

/-- A number that is not negative. -/
def nat? : Json → Option Nat
  | .int (.ofNat n) => some n
  | _ => none

/-- What the object of a line says. -/
def ofJson? : Json → Option NodeLine
  | .obj fields => do
    let kind ← Json.required? fields "kind" Json.text?
    let name ← Json.optional? fields "name" Json.text?
    let start ← Json.optional? fields "start" Position.ofJson?
    let stop ← Json.optional? fields "end" Position.ofJson?
    let depth ← Json.required? fields "depth" nat?
    let id ← Json.required? fields "id" nat?
    let parent ← Json.optional? fields "parent" nat?
    return ⟨kind, name, start, stop, depth, id, parent⟩
  | _ => none

/-- The fields of the object of a line. -/
def objFields (l : NodeLine) : List (String × Json) :=
  ("kind", .str l.kind) :: (Json.optional "name" (l.name.map .str) ++
    (Json.optional "start" (l.start.map Position.toJson) ++ (Json.optional "end" (l.stop.map Position.toJson) ++
      ("depth", .ofNat l.depth) :: ("id", .ofNat l.id) :: Json.optional "parent" (l.parent.map .ofNat))))

theorem toJson_eq_obj (l : NodeLine) : l.toJson = .obj l.objFields := by
  simp [toJson, objFields]

theorem ofJson?_toJson (l : NodeLine) : ofJson? l.toJson = some l := by
  have hkind : Json.required? l.objFields "kind" Json.text? = some l.kind := by
    simp [objFields, Json.required?_cons, Json.text?]
  have hname : Json.optional? l.objFields "name" Json.text? = some l.name := by
    refine Json.optional?_of_lookup (e := Json.str) ?_ (fun _ => Json.noConfusion) (fun _ => rfl)
    simp [objFields, Table.lookup_cons, Json.lookup_optional_append, Json.lookup_optional]
  have hstart : Json.optional? l.objFields "start" Position.ofJson? = some l.start := by
    refine Json.optional?_of_lookup (e := Position.toJson) ?_ (fun _ => Json.noConfusion) Position.ofJson?_toJson
    simp [objFields, Table.lookup_cons, Json.lookup_optional_append, Json.lookup_optional]
  have hstop : Json.optional? l.objFields "end" Position.ofJson? = some l.stop := by
    refine Json.optional?_of_lookup (e := Position.toJson) ?_ (fun _ => Json.noConfusion) Position.ofJson?_toJson
    simp [objFields, Table.lookup_cons, Json.lookup_optional_append, Json.lookup_optional]
  have hdepth : Json.required? l.objFields "depth" nat? = some l.depth := by
    simp [objFields, Json.required?, Table.lookup_cons, Json.lookup_optional_append, Json.ofNat, nat?]
  have hid : Json.required? l.objFields "id" nat? = some l.id := by
    simp [objFields, Json.required?, Table.lookup_cons, Json.lookup_optional_append, Json.ofNat, nat?]
  have hparent : Json.optional? l.objFields "parent" nat? = some l.parent := by
    refine Json.optional?_of_lookup (e := Json.ofNat) ?_ (fun _ => Json.noConfusion) (fun _ => rfl)
    simp [objFields, Table.lookup_cons, Json.lookup_optional_append, Json.lookup_optional]
  rw [toJson_eq_obj, ofJson?, hkind]
  simp only [Option.bind_eq_bind, Option.bind_some, hname, hstart, hstop, hdepth, hid, hparent]
  rfl

theorem nodup_keys (l : NodeLine) : (l.objFields.map Prod.fst).Nodup := by
  have hall : ["kind", "name", "start", "end", "depth", "id", "parent"].Nodup := by decide
  refine hall.sublist ?_
  have hname := Json.keys_optional_sublist "name" (l.name.map .str)
  have hstart := Json.keys_optional_sublist "start" (l.start.map Position.toJson)
  have hstop := Json.keys_optional_sublist "end" (l.stop.map Position.toJson)
  have hparent := Json.keys_optional_sublist "parent" (l.parent.map .ofNat)
  simp only [objFields, List.map_cons, List.map_append]
  exact (hname.append (hstart.append (hstop.append ((hparent.cons_cons "id").cons_cons "depth")))).cons_cons "kind"

end NodeLine

theorem Json.inWord_uint32 (n : UInt32) : Json.InWord n.toNat := by
  have hlt : n.toNat < 0x100000000 := n.toNat_lt
  unfold Json.InWord
  omega

section Ranges

variable {range : Int → Prop}

theorem Position.readable_toJson (h : ∀ n : UInt32, range n.toNat) (p : Position) : p.toJson.Readable range := by
  simp [Position.toJson, Json.Readable, Json.FieldsReadable, Json.ofNat, h]

/-- The object of a line holds integers only as numbers of lines and characters, as depth and as numbers of nodes. -/
theorem NodeLine.readable_toJson {l : NodeLine} (h : ∀ n : UInt32, range n.toNat) (hdepth : range l.depth)
    (hid : range l.id) (hparent : ∀ p, l.parent = some p → range p) : l.toJson.Readable range := by
  have hname : Json.FieldsReadable range (Json.optional "name" (l.name.map .str)) :=
    Json.fieldsReadable_optional fun _ _ => trivial
  have hposition : ∀ (key : String) (p : Option Position),
      Json.FieldsReadable range (Json.optional key (p.map Position.toJson)) := fun _ _ =>
    Json.fieldsReadable_optional fun q _ => Position.readable_toJson h q
  rw [toJson_eq_obj]
  exact ⟨l.nodup_keys, trivial, Json.fieldsReadable_append hname (Json.fieldsReadable_append (hposition "start" l.start)
    (Json.fieldsReadable_append (hposition "end" l.stop) ⟨hdepth, hid, Json.fieldsReadable_optional hparent⟩))⟩

end Ranges

/-! ## Lines and text -/

namespace NodeLine

/-- Whatever characters a name or a file name holds, the text of a line is one line. -/
theorem newline_not_mem (l : NodeLine) : '\n' ∉ l.toJson.compact.toList := by
  have h : l.toJson.Readable fun _ => True := readable_toJson (fun _ => trivial) trivial trivial fun _ _ => trivial
  exact Json.newline_not_mem_compact h

/-- A line whose numbers fit into a machine word is read back. -/
theorem parse_compact {l : NodeLine} (hid : l.id < UInt64.size) (hdepth : l.depth ≤ l.id)
    (hparent : ∀ p, l.parent = some p → p < l.id) : Json.parse l.toJson.compact = .ok l.toJson := by
  have hword : ∀ n : Nat, n ≤ l.id → Json.InWord n := by
    intro n hn
    rw [UInt64.size] at hid
    unfold Json.InWord
    omega
  have h : l.toJson.Readable Json.InWord :=
    readable_toJson Json.inWord_uint32 (hword l.depth hdepth) (hword l.id (Nat.le_refl _)) fun p hp =>
      hword p (Nat.le_of_lt (hparent p hp))
  exact Json.parse_compact h

end NodeLine

/-- A line of a tree whose number fits into a machine word is read back, since no other number in it is greater. -/
theorem Node.parse_of_mem_numbered {id : Nat} {n : Node} {l : NodeLine} (h : l ∈ n.numbered 0 none id)
    (hid : l.id < UInt64.size) : Json.parse l.toJson.compact = .ok l.toJson := by
  refine NodeLine.parse_compact hid (depth_le_id h) fun p hp => ?_
  rcases linked_of_mem_numbered h with rfl | ⟨m, -, hm, hlt, -⟩
  · cases hp
  · rw [hm] at hp
    cases hp
    exact hlt

/-- The lines of a text, each of which must be ended by a newline; `line` is what has been read of the first, last
character first. -/
def linesFrom? : List Char → List Char → Option (List String)
  | line, [] => if line.isEmpty then some [] else none
  | line, c :: cs =>
    if c = '\n' then (linesFrom? [] cs).map (String.ofList line.reverse :: ·) else linesFrom? (c :: line) cs

theorem linesFrom?_append : ∀ {line t rest : List Char}, '\n' ∉ t →
    linesFrom? line (t ++ '\n' :: rest) = (linesFrom? [] rest).map (String.ofList (line.reverse ++ t) :: ·)
  | line, [], rest, _ => by simp [linesFrom?]
  | line, c :: t, rest, h => by
    simp only [List.mem_cons, not_or] at h
    rw [List.cons_append, linesFrom?, if_neg (Ne.symm h.1), linesFrom?_append h.2]
    simp

/-- The lines of nodes that a text holds. -/
def readLines? (text : String) : Option (List NodeLine) :=
  (linesFrom? [] text.toList).bind (List.mapM fun line => (Json.parse line).toOption.bind NodeLine.ofJson?)

theorem readLines?_text {text : String} {ls : List NodeLine} (htext : text.toList = ls.flatMap fun l => l.text.toList)
    (hparse : ∀ l ∈ ls, Json.parse l.toJson.compact = .ok l.toJson) : readLines? text = some ls := by
  have hlines : ∀ ls : List NodeLine, linesFrom? [] (ls.flatMap fun l => l.text.toList) =
      some (ls.map fun l => l.toJson.compact) := by
    intro ls
    induction ls with
    | nil => rfl
    | cons l ls ih =>
      rw [List.flatMap_cons, NodeLine.text, String.toList_append, List.append_assoc]
      simp [linesFrom?_append l.newline_not_mem, ih]
  rw [readLines?, htext, hlines, Option.bind_some]
  clear htext
  induction ls with
  | nil => rfl
  | cons l ls ih =>
    have hl := hparse l List.mem_cons_self
    have ih := ih fun m hm => hparse m (List.mem_cons_of_mem l hm)
    rw [List.map_cons, List.mapM_cons, ih, hl, Except.toOption, Option.bind_some, NodeLine.ofJson?_toJson]
    rfl

/-! ## Runs -/

namespace LineStream

/-- The calls, each with its limit and its tree, lead from one stream to the other without a failure. -/
inductive Writes : LineStream → List (Option Nat × Node) → LineStream → Prop
  | nil (s : LineStream) : Writes s [] s
  | cons {s t u : LineStream} {limit : Option Nat} {n : Node} {calls : List (Option Nat × Node)} :
      s.write limit n = (.ok (), t) → Writes t calls u → Writes s ((limit, n) :: calls) u

/-- The lines of the calls, call by call, if the first of them gets this number. -/
def blocks : Nat → List (Option Nat × Node) → List (List NodeLine)
  | _, [] => []
  | id, (limit, n) :: calls => (n.cut limit).numbered 0 none id :: blocks (id + (n.cut limit).size) calls

theorem write_eq_putLines (s : LineStream) (limit : Option Nat) (n : Node) :
    s.write limit n = putLines ((n.cut limit).numbered 0 none s.nextId) s := by
  have hlimit : limit.map (· - 0) = limit := by cases limit <;> rfl
  rw [write, writeFrom_eq_putLines, hlimit]

/-- One call writes the lines of its tree. -/
theorem write_ok {s t : LineStream} {limit : Option Nat} {n : Node} (h : s.write limit n = (.ok (), t)) :
    t.nextId = s.nextId + (n.cut limit).size ∧ t.sink.written.toList = s.sink.written.toList ++
      ((n.cut limit).numbered 0 none s.nextId).flatMap fun l => l.text.toList := by
  rw [write_eq_putLines] at h
  have hput := putLines_ok h
  rwa [Node.length_numbered] at hput

/-- A call goes well on a sink that never fails. -/
theorem write_neverFails {s : LineStream} (h : s.sink.NeverFails) (limit : Option Nat) (n : Node) :
    ∃ t, s.write limit n = (.ok (), t) ∧ t.sink.NeverFails := by
  rw [write_eq_putLines]
  exact putLines_neverFails _ h

/-- A run writes the lines of its calls one after the other. -/
theorem Writes.text {s t : LineStream} {calls : List (Option Nat × Node)} (h : Writes s calls t) :
    t.nextId = s.nextId + (blocks s.nextId calls).flatten.length ∧ t.sink.written.toList =
      s.sink.written.toList ++ (blocks s.nextId calls).flatten.flatMap fun l => l.text.toList := by
  induction h with
  | nil s => simp [blocks]
  | cons hw _ ih =>
    obtain ⟨hid, htext⟩ := write_ok hw
    rw [blocks, List.flatten_cons, List.flatMap_append, List.length_append, Node.length_numbered, ← hid, ih.1, ih.2,
      htext]
    refine ⟨by omega, ?_⟩
    rw [List.append_assoc]

/-! ### The lines of a run -/

theorem blocks_ids : ∀ (id : Nat) (calls : List (Option Nat × Node)),
    (blocks id calls).flatten.map NodeLine.id = List.range' id (blocks id calls).flatten.length
  | _, [] => rfl
  | id, (limit, n) :: calls => by
    rw [blocks, List.flatten_cons, List.map_append, Node.numbered_ids, blocks_ids, List.length_append,
      Node.length_numbered, List.range'_append_1]

theorem blocks_nodes : ∀ (id : Nat) (calls : List (Option Nat × Node)),
    List.Forall₂ (fun block call => List.Forall₂ Node.Shows block (call.2.cut call.1).preorder) (blocks id calls) calls
  | _, [] => .nil
  | id, (limit, n) :: calls => .cons (Node.numbered_nodes 0 none id (n.cut limit)) (blocks_nodes _ calls)

theorem exists_of_mem_blocks : ∀ {id : Nat} {calls : List (Option Nat × Node)} {block : List NodeLine},
    block ∈ blocks id calls → ∃ (k : Nat) (n : Node), block = n.numbered 0 none k
  | _, [], _, h => by cases h
  | id, (limit, n) :: calls, block, h => by
    rw [blocks] at h
    rcases List.mem_cons.1 h with rfl | h
    · exact ⟨id, n.cut limit, rfl⟩
    · exact exists_of_mem_blocks h

/-- The lines of a run are rebuilt into the trees of its calls, none of which waits for a parent. -/
theorem rebuild_blocks : ∀ (id : Nat) (calls : List (Option Nat × Node)),
    rebuild (blocks id calls).flatten = calls.map fun call => (none, (call.2.cut call.1).outline)
  | _, [] => rfl
  | id, (limit, n) :: calls => by
    have hrest := rebuild_blocks (id + (n.cut limit).size) calls
    have hawait : AwaitBelow id (rebuild (blocks (id + (n.cut limit).size) calls).flatten) := by
      rw [hrest]
      intro t ht p hp
      obtain ⟨call, -, rfl⟩ := List.mem_map.1 ht
      cases hp
    rw [blocks, List.flatten_cons, Node.rebuild_numbered (n.cut limit) hawait, hrest, List.map_cons]

theorem parse_of_mem_blocks {id : Nat} {calls : List (Option Nat × Node)} {l : NodeLine}
    (h : l ∈ (blocks id calls).flatten) (hid : l.id < UInt64.size) : Json.parse l.toJson.compact = .ok l.toJson := by
  obtain ⟨block, hblock, hl⟩ := List.mem_flatten.1 h
  obtain ⟨k, n, rfl⟩ := exists_of_mem_blocks hblock
  exact Node.parse_of_mem_numbered hl hid

/-- The lines of a run on a fresh stream are read back as long as their numbers fit into a machine word. -/
theorem readLines?_blocks {text : String} {calls : List (Option Nat × Node)}
    (htext : text.toList = (blocks 0 calls).flatten.flatMap fun l => l.text.toList)
    (hword : (blocks 0 calls).flatten.length ≤ UInt64.size) : readLines? text = some (blocks 0 calls).flatten := by
  refine readLines?_text htext fun l hl => parse_of_mem_blocks hl ?_
  have hid : l.id ∈ (blocks 0 calls).flatten.map NodeLine.id := List.mem_map_of_mem hl
  rw [blocks_ids, ← List.range_eq_range', List.mem_range] at hid
  exact Nat.lt_of_lt_of_le hid hword

/-- The text consists of these lines, and the lines, call by call, of the trees of the calls, as far as their limits
allow. -/
structure Encodes (text : String) (blocks : List (List NodeLine)) (calls : List (Option Nat × Node)) : Prop where
  /-- The text is the lines, each ended by a newline. -/
  text_eq : text.toList = blocks.flatten.flatMap fun l => l.toJson.compact.toList ++ ['\n']
  /-- No line has a newline inside. -/
  no_newline : ∀ l ∈ blocks.flatten, '\n' ∉ l.toJson.compact.toList
  /-- Each line is one JSON object that says what the line says. -/
  parse : ∀ l ∈ blocks.flatten, l.id < UInt64.size →
    Json.parse l.toJson.compact = .ok l.toJson ∧ NodeLine.ofJson? l.toJson = some l
  /-- The lines of a call are those of the nodes of its tree, each before its children. -/
  nodes : List.Forall₂ (fun block call => List.Forall₂ Node.Shows block (call.2.cut call.1).preorder) blocks calls
  /-- Over all calls the numbers count up from zero. -/
  ids : blocks.flatten.map NodeLine.id = List.range blocks.flatten.length
  /-- The first line of a call has no parent, any other one names an earlier line of the call, a step further up. -/
  parents : ∀ block ∈ blocks, ∀ before l after, block = before ++ l :: after → (l.parent = none ↔ before = []) ∧
    ∀ p, l.parent = some p → ∃ m ∈ before, m.id = p ∧ m.depth + 1 = l.depth
  /-- The trees are told by the parents alone. -/
  trees : rebuild blocks.flatten = calls.map fun call => (none, (call.2.cut call.1).outline)

/-- **A stream holds the trees written to it**: after any run of calls on a fresh stream that all went well, the text is
made of lines that tell the trees down to their limits. As long as the numbers of nodes fit into a machine word, the
lines are read back from the text, so that the text alone tells the trees. -/
theorem Writes.encodes {fault : Nat → Option IoError} {calls : List (Option Nat × Node)} {s : LineStream}
    (h : Writes (.ofSink (.fresh fault)) calls s) : ∃ blocks, Encodes s.sink.written blocks calls ∧
      (s.nextId ≤ UInt64.size → readLines? s.sink.written = some blocks.flatten) := by
  obtain ⟨hnext, htext⟩ := h.text
  have hnext : s.nextId = (blocks 0 calls).flatten.length := by simpa [ofSink] using hnext
  have htext : s.sink.written.toList = (blocks 0 calls).flatten.flatMap fun l => l.text.toList := by
    simpa [ofSink, Sink.fresh] using htext
  have hids : (blocks 0 calls).flatten.map NodeLine.id = List.range (blocks 0 calls).flatten.length := by
    rw [blocks_ids, List.range_eq_range']
  refine ⟨blocks 0 calls,
    ⟨?_, fun l _ => l.newline_not_mem, ?_, blocks_nodes 0 calls, hids, ?_, rebuild_blocks 0 calls⟩, ?_⟩
  · rw [htext]
    simp [NodeLine.text]
  · exact fun l hl hword => ⟨parse_of_mem_blocks hl hword, l.ofJson?_toJson⟩
  · intro block hblock before l after heq
    obtain ⟨k, n, rfl⟩ := exists_of_mem_blocks hblock
    exact Node.parent_of_numbered heq
  · exact fun hword => readLines?_blocks htext (hnext ▸ hword)

/-- Two trees, the first cut below its children, with names that hold a newline and a quote. -/
def sampleCalls : List (Option Nat × Node) :=
  [(some 1, .root [.mk (.named .namespaceDecl "a\nb") none [.mk (.plain .thisExpr) none []],
     .mk (.plain .thisExpr) none []]),
   (none, .mk (.quoted .stringLiteral "\"") (some ⟨⟨"x\ny", 1, 2⟩, ⟨"x\ny", 3, 4⟩⟩) [])]

theorem sampleCalls_encoded : ∃ s : LineStream, Writes (.ofSink .reliable) sampleCalls s ∧
    ∃ blocks, Encodes s.sink.written blocks sampleCalls ∧ readLines? s.sink.written = some blocks.flatten := by
  have h : Writes (.ofSink .reliable) sampleCalls _ := .cons rfl (.cons rfl (.nil _))
  obtain ⟨blocks, hblocks, hread⟩ := Writes.encodes h
  exact ⟨_, h, blocks, hblocks, hread (by decide)⟩

end LineStream

end SyntaxView
