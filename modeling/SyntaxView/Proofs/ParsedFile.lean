import SyntaxView.ParsedFile.Writer
import SyntaxView.Proofs.Tree.Agreement

/-!
# The texts of parsed files

The text of parsed files (`ParsedFile.textOf`) is made of the texts of the files, one after the other, in each format.

- As trees, a file is its name and, below it, a line for each node that is not too deep, in preorder. The line shows
  depth, label, name and span of the node (`textOf_tree`, `Node.ShownIn`, `treeText_shows`).
- As JSON documents, whatever the limit, the files are read back from the text (`readFiles?_textOf`).
- As lines, numbered through over all files, the text is read back into lines, and these are rebuilt into the trees of
  the files down to the limit (`readLines?_textOf`).

A sink that never fails takes the text of any files, one that always fails makes every format fail.
-/

namespace SyntaxView

/-! ## Lines of indented text -/

namespace NodeKind

/-- The text is empty or starts with a blank. -/
def Led (s : String) : Prop := s.toList.head?.all (· == ' ') = true

instance (s : String) : Decidable (Led s) := inferInstanceAs (Decidable (_ = _))

theorem Led.append {s t : String} (hs : Led s) (ht : Led t) : Led (s ++ t) := by
  unfold Led at *
  rw [String.toList_append]
  cases h : s.toList with
  | nil => exact ht
  | cons c cs =>
    rw [h] at hs
    exact hs

theorem led_append {s : String} (hs : s.toList.head? = some ' ') (t : String) : Led (s ++ t) := by
  unfold Led
  rw [String.toList_append, List.head?_append, hs]
  rfl

/-- What is led by a blank does not go on with a letter, even at the end of a line. -/
theorem Led.not_letter {s : String} (h : Led s) (c : Char) (hc : (s ++ "\n").toList.head? = some c) :
    c.isAlpha = false := by
  unfold Led at h
  rw [String.toList_append] at hc
  cases hs : s.toList with
  | nil =>
    rw [hs] at hc
    cases hc
    decide
  | cons d ds =>
    rw [hs] at h hc
    have hd : d = ' ' := by simpa using h
    cases hc
    rw [hd]
    decide

theorem led_access (access : Access) : Led access.suffix := by cases access <;> decide

theorem led_virtuality (virtuality : Virtuality) : Led virtuality.suffix := by cases virtuality <;> decide

theorem led_flagText : ∀ (present : Bool) (word : String), Led (flagText present word)
  | false, _ => rfl
  | true, word => led_append (by decide) word

theorem Led.append_text {s t : String} (hs : Led s) (ht : t.toList.head? = some ' ') (more : String) :
    Led (s ++ t ++ more) := by
  rw [String.append_assoc]
  exact hs.append (led_append ht more)

/-- What follows the name goes on after a blank. -/
theorem led_detail : ∀ k : NodeKind, Led k.detail
  | .root | .plain _ | .named .. | .quoted .. => rfl
  | .record _ _ access isAbstract => (led_access access).append (led_flagText isAbstract "abstract")
  | .scoped _ _ access | .accessSpecifier access => led_access access
  | .field _ access type => (led_access access).append_text (by decide) type.describe
  | .alias _ _ underlying access => (led_access access).append_text (by decide) underlying.describe
  | .function _ displayName _ returnType _ => by
    change Led (" (" ++ displayName ++ ") -> " ++ returnType.describe)
    simp only [String.append_assoc]
    exact led_append (by decide) _
  | .method _ access _ virtuality returnType _ isStatic isConst =>
    have hflags := ((led_access access).append (led_virtuality virtuality)).append (led_flagText isStatic "static")
    (hflags.append (led_flagText isConst "const")).append_text (by decide) returnType.describe
  | .constructor _ form access => (led_access access).append_text (by decide) (Labelled.label form)
  | .destructor _ access virtuality => (led_access access).append (led_virtuality virtuality)
  | .typed .. | .cStyleCast _ => led_append (by decide) _
  | .notSupported _ code => by
    change Led (" (cursor kind " ++ toString code.toInt ++ ")")
    rw [String.append_assoc]
    exact led_append (by decide) _

/-- A label is not empty and has nothing but letters. -/
theorem label_letters (k : NodeKind) : k.label.toList ≠ [] ∧ ∀ c ∈ k.label.toList, c.isAlpha = true := by
  have hall : ∀ t ∈ order, t ≠ "" ∧ t.toList.all Char.isAlpha = true := by decide +kernel
  obtain ⟨hne, hletters⟩ := hall k.label ((mem_order_iff _).2 ⟨k, tag_eq_label k⟩)
  exact ⟨by simpa using hne, List.all_eq_true.1 hletters⟩

/-- After the label, a description goes on after a blank, with the name if there is one. -/
theorem describe_eq (k : NodeKind) : ∃ rest, k.describe = k.label ++ rest ∧ Led rest ∧
    ∀ name, k.name? = some name → name ≠ "" → ∃ more, rest = " " ++ name ++ more := by
  unfold describe
  cases hname : k.name? with
  | none => exact ⟨k.detail, by simp, led_detail k, nofun⟩
  | some name =>
    by_cases hempty : name = ""
    · subst hempty
      exact ⟨k.detail, by simp, led_detail k, fun _ h hne => absurd (Option.some.inj h).symm hne⟩
    · refine ⟨" " ++ name ++ k.detail, by simp [hempty, String.append_assoc], ?_, ?_⟩
      · rw [String.append_assoc]
        exact led_append (by decide) _
      · intro name' h _
        cases h
        exact ⟨k.detail, rfl⟩

end NodeKind

namespace Node

open NodeKind (Led led_append)

/-- The depth and the label that a line of indented text starts with. -/
def lineHead (line : String) : Nat × String :=
  ((line.toList.takeWhile (· == ' ')).length / 2,
    String.ofList ((line.toList.dropWhile (· == ' ')).takeWhile Char.isAlpha))

/-- What a line of indented text shows of a node at a depth. -/
structure ShownIn (depth : Nat) (n : Node) (line : String) : Prop where
  /-- The start of the line tells depth and label. -/
  head : lineHead line = (depth, n.label)
  /-- A name that is not empty stands after the label. -/
  name : ∀ name, n.name? = some name → name ≠ "" →
    ∃ more, line = String.ofList (List.replicate (2 * depth) ' ') ++ n.label ++ " " ++ name ++ more
  /-- A span stands in brackets at the end. -/
  span : ∀ s, n.span = some s → ∃ before, line = before ++ " [" ++ s.describe ++ "]" ++ "\n"
  ended : ∃ before, line = before ++ "\n"

/-- What follows the label does not belong to it. -/
theorem lineHead_append {label rest : String} (hne : label.toList ≠ [])
    (hletters : ∀ c ∈ label.toList, c.isAlpha = true) (hrest : ∀ c, rest.toList.head? = some c → c.isAlpha = false)
    (depth : Nat) : lineHead (String.ofList (List.replicate (2 * depth) ' ') ++ (label ++ rest)) = (depth, label) := by
  have hblanks : ∀ c ∈ List.replicate (2 * depth) ' ', (c == ' ') = true := fun c hc => by
    rw [List.eq_of_mem_replicate hc]
    rfl
  obtain ⟨c, cs, hlabel⟩ : ∃ c cs, label.toList = c :: cs := List.exists_cons_of_ne_nil hne
  have hc : (c == ' ') = false := by
    have hletter : c.isAlpha = true := hletters c (by rw [hlabel]; exact List.mem_cons_self)
    rw [beq_eq_false_iff_ne]
    rintro rfl
    exact absurd hletter (by decide)
  have htake : (label.toList ++ rest.toList).takeWhile (· == ' ') = [] := by simp [hlabel, hc]
  have hdrop : (label.toList ++ rest.toList).dropWhile (· == ' ') = label.toList ++ rest.toList := by simp [hlabel, hc]
  have hstop : rest.toList.takeWhile Char.isAlpha = [] := by
    cases h : rest.toList with
    | nil => rfl
    | cons c cs => exact List.takeWhile_cons_of_neg (by simp [hrest c (by rw [h]; rfl)])
  unfold lineHead
  rw [String.toList_append, String.toList_append, String.toList_ofList, List.takeWhile_append_of_pos hblanks,
    List.dropWhile_append_of_pos hblanks, htake, hdrop, List.takeWhile_append_of_pos hletters, hstop]
  simp [String.ofList_toList]

/-- What stands between the description and the end of the line. -/
theorem renderLine_eq (depth : Nat) (n : Node) : ∃ after, Led after ∧
    (∀ s, n.span = some s → after = " [" ++ s.describe ++ "]") ∧
    renderLine depth n = String.ofList (List.replicate (2 * depth) ' ') ++ n.kind.describe ++ after ++ "\n" := by
  unfold renderLine
  cases n.span with
  | none => exact ⟨"", rfl, nofun, rfl⟩
  | some s =>
    refine ⟨" [" ++ s.describe ++ "]", ?_, fun _ h => by cases h; rfl, rfl⟩
    rw [String.append_assoc]
    exact led_append (by decide) _

/-- **A line of indented text shows its node.** -/
theorem shownIn_renderLine (depth : Nat) (n : Node) : n.ShownIn depth (renderLine depth n) := by
  obtain ⟨rest, hrest, hled, hname⟩ := n.kind.describe_eq
  obtain ⟨hne, hletters⟩ := n.kind.label_letters
  obtain ⟨after, hafter, hspan, hline⟩ := renderLine_eq depth n
  rw [hrest] at hline
  constructor
  · rw [hline]
    simp only [String.append_assoc]
    refine lineHead_append hne hletters (fun c hc => (hled.append hafter).not_letter c ?_) depth
    rwa [String.append_assoc]
  · intro name h hname'
    obtain ⟨more, rfl⟩ := hname name h hname'
    exact ⟨more ++ after ++ "\n", by rw [hline]; simp only [String.append_assoc]; rfl⟩
  · intro s hs
    rw [hspan s hs] at hline
    exact ⟨_, hline.trans (by rw [← String.append_assoc, ← String.append_assoc])⟩
  · exact ⟨_, hline⟩

example : renderLine 1 (.mk (.record .classDecl "A" .publicAccess true) (some ⟨⟨"a.h", 3, 1⟩, ⟨"a.h", 5, 2⟩⟩) []) =
    "  Class A public abstract [a.h:3:1-5:2]\n" := by decide

end Node

/-! ## Values of nodes and files -/

theorem Json.inWord_int32 (n : Int32) : Json.InWord n.toInt := by
  have hlo : -0x80000000 ≤ n.toInt := n.le_toInt
  have hhi : n.toInt < 0x80000000 := n.toInt_lt
  unfold Json.InWord
  omega

section Readable

open Json (Readable AllReadable FieldsReadable InWord)

theorem TypeKind.readable_toJson (t : TypeKind) : t.toJson.Readable InWord := by
  cases t with
  | known t => trivial
  | notSupported n => exact ⟨by simp, Json.inWord_int32 n, trivial⟩

theorem NodeKind.fieldsReadable (k : NodeKind) : FieldsReadable InWord k.fields := by
  cases k <;> simp [fields, FieldsReadable, Readable, Labelled.toJson, TypeKind.readable_toJson, Json.inWord_int32]

theorem Span.readable_toJson (s : Span) : s.toJson.Readable InWord :=
  ⟨by simp, Position.readable_toJson Json.inWord_uint32 s.start, Position.readable_toJson Json.inWord_uint32 s.stop,
    trivial⟩

mutual
/-- The value of a tree holds integers only as numbers of lines, columns and kinds. -/
theorem Node.readable_toJson : ∀ n : Node, n.toJson.Readable InWord
  | .mk kind span children => by
    have hspan : FieldsReadable InWord (Json.optional "span" (span.map Span.toJson)) :=
      Json.fieldsReadable_optional fun s _ => s.readable_toJson
    have hchildren : FieldsReadable InWord (listField "children" (toJsonAll children)) := by
      unfold listField
      split
      · trivial
      · exact ⟨allReadable_toJsonAll children, trivial⟩
    have hkeys : ((Node.mk kind span children).objFields.map Prod.fst).Nodup := nodup_keys _
    rw [toJson_eq_obj]
    refine ⟨hkeys, Json.fieldsReadable_append (Json.fieldsReadable_append ⟨trivial, kind.fieldsReadable⟩ hspan) ?_⟩
    rwa [children_mk, ← toJsonAll_eq_map]

theorem Node.allReadable_toJsonAll : ∀ ns : List Node, AllReadable InWord (toJsonAll ns)
  | [] => trivial
  | n :: ns => ⟨readable_toJson n, allReadable_toJsonAll ns⟩
end

theorem Diagnostic.readable_toJson (d : Diagnostic) : d.toJson.Readable InWord := by
  have hkeys := (Json.keys_optional_sublist "position" (d.position.map Position.toJson)).cons_cons "message"
  have hposition : FieldsReadable InWord (Json.optional "position" (d.position.map Position.toJson)) :=
    Json.fieldsReadable_optional fun p _ => Position.readable_toJson Json.inWord_uint32 p
  exact ⟨List.Nodup.sublist (hkeys.cons_cons "severity") (by decide), trivial, trivial, hposition⟩

theorem ParsedFile.readable_toJson (f : ParsedFile) : f.toJson.Readable InWord := by
  have hdiagnostics : ∀ ds : List Diagnostic, AllReadable InWord (ds.map Diagnostic.toJson) := by
    intro ds
    induction ds with
    | nil => trivial
    | cons d ds ih => exact ⟨d.readable_toJson, ih⟩
  exact ⟨by simp, trivial, f.tree.readable_toJson, hdiagnostics f.diagnostics, trivial⟩

end Readable

namespace ParsedFile

/-! ## Sinks -/

theorem writeLines_neverFails (limit : Option Nat) : ∀ (files : List ParsedFile) {s : LineStream}, s.sink.NeverFails →
    ∃ t, writeLines limit files s = (.ok (), t) ∧ t.sink.NeverFails
  | [], s, h => ⟨s, rfl, h⟩
  | f :: rest, s, h => by
    obtain ⟨t, ht, hnever⟩ := LineStream.write_neverFails h limit f.tree
    rw [writeLines, ht]
    exact writeLines_neverFails limit rest hnever

/-- A sink that never fails takes the text of all files. -/
theorem writeAll_neverFails (format : OutputFormat) (limit : Option Nat) (files : List ParsedFile) {sink : Sink}
    (h : sink.NeverFails) : (writeAll format limit files sink).1 = .ok () := by
  have hput : ∀ text, (sink.put text).NeverFails := fun _ => h
  cases format with
  | tree => rw [writeAll, (hput _).flush]
  | json => rw [writeAll, (hput _).flush]
  | jsonl =>
    obtain ⟨t, ht, hnever⟩ := writeLines_neverFails limit files (s := .ofSink sink) h
    rw [writeAll, ht]
    exact congrArg Prod.fst hnever.flush

/-- A tree is written by at least one line, so a sink that always fails takes none. -/
theorem write_alwaysFails (e : IoError) (limit : Option Nat) (n : Node) :
    ∃ t, (LineStream.ofSink (.fresh fun _ => some e)).write limit n = (.error (.write e), t) := by
  rw [LineStream.write, LineStream.writeFrom_eq_putLines, Node.numbered_eq_cons]
  exact ⟨_, rfl⟩

theorem writeAll_alwaysFails (format : OutputFormat) (limit : Option Nat) (files : List ParsedFile) (e : IoError) :
    (writeAll format limit files (.fresh fun _ => some e)).1 = .error (.write e) := by
  cases format with
  | tree => rfl
  | json => rfl
  | jsonl =>
    cases files with
    | nil => rfl
    | cons f rest =>
      obtain ⟨t, ht⟩ := write_alwaysFails e limit f.tree
      rw [writeAll, writeLines, ht]

/-! ## Trees -/

theorem textOf_tree (limit : Option Nat) (files : List ParsedFile) :
    textOf .tree limit files = String.join (files.map (treeText limit)) := by
  simp [textOf, writeAll, Sink.put, Sink.flush, Sink.reliable, Sink.fresh]

/-- **The tree of a file is shown below its name**: a line for each node that is not too deep, before its children. -/
theorem treeText_shows (limit : Option Nat) (f : ParsedFile) : ∃ lines : List String,
    f.treeText limit = f.fileName ++ "\n" ++ String.join lines ∧
      List.Forall₂ (fun m line => m.2.ShownIn m.1 line)
        (f.tree.preorder.filter fun m => limit.all fun most => decide (m.1 ≤ most)) lines := by
  refine ⟨_, by rw [treeText, Node.render_eq_join], ?_⟩
  rw [Node.rendered_eq_filter, List.forall₂_map_right_iff, List.forall₂_same]
  exact fun m _ => m.2.shownIn_renderLine m.1

/-! ## Documents -/

theorem textOf_json (limit : Option Nat) (files : List ParsedFile) :
    textOf .json limit files = String.join (files.map jsonText) := by
  simp [textOf, writeAll, Sink.put, Sink.flush, Sink.reliable, Sink.fresh]

/-- The files that values one after the other stand for; the fuel bounds their number. -/
def filesFrom? : Nat → List Char → Option (List ParsedFile)
  | 0, _ => none
  | fuel + 1, cs =>
    match Json.skipSpace cs with
    | [] => some []
    | cs => do
      let (v, rest) ← (Json.value .strict cs).toOption
      return (← ofJson? v) :: (← filesFrom? fuel rest)

/-- The files that a text stands for. -/
def readFiles? (text : String) : Option (List ParsedFile) := filesFrom? (text.length + 1) text.toList

theorem value_jsonText (f : ParsedFile) (rest : List Char) :
    Json.value .strict (f.jsonText.toList ++ rest) = .ok (f.toJson, '\n' :: rest) := by
  have h := Json.value_chars f.readable_toJson (some 2) ('\n' :: rest) (.cons (by decide))
  simpa [jsonText, Json.pretty, String.toList_append, String.toList_ofList] using h

/-- A document starts with its bracket. -/
theorem jsonText_cons (f : ParsedFile) : ∃ cs, f.jsonText.toList = '\x7b' :: cs :=
  ⟨_, by
    simp only [jsonText, Json.pretty, toJson, Json.chars, String.toList_append, String.toList_ofList, List.cons_append]
    rfl⟩

/-- No blanks come before the first document. -/
theorem skipSpace_texts (files : List ParsedFile) :
    Json.skipSpace (files.flatMap fun f => f.jsonText.toList) = files.flatMap fun f => f.jsonText.toList := by
  cases files with
  | nil => rfl
  | cons f files =>
    obtain ⟨cs, heq⟩ := f.jsonText_cons
    rw [List.flatMap_cons, heq, List.cons_append]
    exact Json.skipSpace_cons (by decide) _

theorem filesFrom?_texts : ∀ (files : List ParsedFile) {fuel : Nat} {cs : List Char}, files.length < fuel →
    Json.skipSpace cs = files.flatMap (fun f => f.jsonText.toList) → filesFrom? fuel cs = some files
  | _, 0, _, hfuel, _ => absurd hfuel (Nat.not_lt_zero _)
  | [], fuel + 1, cs, _, hcs => by
    rw [filesFrom?, hcs]
    rfl
  | f :: files, fuel + 1, cs, hfuel, hcs => by
    have hvalue := value_jsonText f (files.flatMap fun f => f.jsonText.toList)
    -- The newline that ends the document is left for the next one to skip.
    have hskip : Json.skipSpace ('\n' :: files.flatMap fun f => f.jsonText.toList) = _ :=
      (List.dropWhile_cons_of_pos (by decide)).trans (skipSpace_texts files)
    have hrest := filesFrom?_texts files (Nat.lt_of_succ_lt_succ hfuel) hskip
    obtain ⟨text, heq⟩ := f.jsonText_cons
    rw [heq, List.cons_append] at hvalue
    rw [filesFrom?, hcs, List.flatMap_cons, heq, List.cons_append]
    simp only [hvalue, Except.toOption, Option.bind_eq_bind, Option.bind_some, ofJson?_toJson, hrest]
    rfl

theorem length_le_texts (files : List ParsedFile) :
    files.length ≤ (files.flatMap fun f => f.jsonText.toList).length := by
  induction files with
  | nil => exact Nat.le_refl 0
  | cons f files ih =>
    obtain ⟨cs, heq⟩ := f.jsonText_cons
    rw [List.flatMap_cons, heq, List.cons_append, List.length_cons, List.length_cons, List.length_append]
    omega

/-- **Files are read back from their documents**, whatever the limit. -/
theorem readFiles?_textOf (limit : Option Nat) (files : List ParsedFile) :
    readFiles? (textOf .json limit files) = some files := by
  have htext : (textOf .json limit files).toList = files.flatMap fun f => f.jsonText.toList := by
    rw [textOf_json, String.toList_join, List.flatMap_map]
  have hlength := length_le_texts files
  rw [readFiles?, htext, ← String.length_toList, htext]
  exact filesFrom?_texts files (Nat.lt_succ_of_le hlength) (skipSpace_texts files)

/-! ## Lines -/

/-- The calls that write files as lines. -/
def lineCalls (limit : Option Nat) (files : List ParsedFile) : List (Option Nat × Node) :=
  files.map fun f => (limit, f.tree)

theorem writes_of_writeLines {limit : Option Nat} : ∀ {files : List ParsedFile} {s t : LineStream},
    writeLines limit files s = (.ok (), t) → LineStream.Writes s (lineCalls limit files) t
  | [], s, t, h => by
    cases h
    exact .nil s
  | f :: files, s, t, h => by
    rw [writeLines] at h
    split at h
    · cases h
    · next u hu => exact .cons hu (writes_of_writeLines h)

/-- The text of files as lines is the lines of their trees, numbered through. -/
theorem textOf_jsonl (limit : Option Nat) (files : List ParsedFile) : (textOf .jsonl limit files).toList =
    (LineStream.blocks 0 (lineCalls limit files)).flatten.flatMap fun l => l.text.toList := by
  obtain ⟨t, ht, hnever⟩ := writeLines_neverFails limit files (s := .ofSink .reliable) Sink.neverFails_reliable
  obtain ⟨-, htext⟩ := (writes_of_writeLines ht).text
  rw [textOf, writeAll, ht]
  simpa [LineStream.ofSink, Sink.reliable, Sink.fresh, Sink.flush] using htext

/-- **Lines are read back and tell the trees of the files**, as far as the limit allows, as long as their numbers fit
into a machine word. -/
theorem readLines?_textOf (limit : Option Nat) (files : List ParsedFile)
    (h : (LineStream.blocks 0 (lineCalls limit files)).flatten.length ≤ UInt64.size) :
    ∃ lines, readLines? (textOf .jsonl limit files) = some lines ∧
      rebuild lines = files.map fun f => (none, (f.tree.cut limit).outline) := by
  refine ⟨_, LineStream.readLines?_blocks (textOf_jsonl limit files) h, ?_⟩
  rw [LineStream.rebuild_blocks, lineCalls, List.map_map]
  rfl

end ParsedFile

end SyntaxView
