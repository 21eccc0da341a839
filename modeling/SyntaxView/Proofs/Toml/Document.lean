import SyntaxView.Proofs.Data
import SyntaxView.Proofs.Toml.Values

/-!
# Reading documents back

A `Document` has rows of keys and values, and tables with rows of their own. If its keys are bare and its values can be
read, it is read as its entries (`parse_document`): rows go into the table that is open one after the other
(`linesFrom_rows`), and a header opens the next one (`linesFrom_division`).

The fuel of the reader is measured by the length of the text: each row and each header takes at least one character.
-/

namespace SyntaxView.Toml

variable {e : Edition}

/-! ## Keys -/

/-- A key that is written without quotes. -/
def IsBare (key : String) : Prop := key.toList ≠ [] ∧ ∀ c ∈ key.toList, isBareKey c = true

instance (key : String) : Decidable (IsBare key) :=
  decidable_of_iff (key.toList ≠ [] ∧ key.toList.all isBareKey = true) (and_congr_right fun _ => List.all_eq_true)

theorem startsValue_of_isBareKey {c : Char} (hc : isBareKey c = true) : startsValue c = true := by
  have hne : ∀ x ∈ [' ', '\t', '\n', '\r', '#', ']'], c ≠ x := ne_of_class hc (by decide)
  simp only [List.mem_cons, List.not_mem_nil, or_false, forall_eq_or_imp, forall_eq] at hne
  simp [startsValue, isSpace, hne]

theorem IsBare.head {key : String} (hkey : IsBare key) : ∃ c cs, key.toList = c :: cs ∧ isBareKey c = true := by
  cases hlist : key.toList with
  | nil => exact absurd hlist hkey.1
  | cons c cs => exact ⟨c, cs, rfl, hkey.2 c (hlist ▸ List.mem_cons_self)⟩

/-- A bare key does not start with a quote or a bracket. -/
theorem IsBare.append_ne {key : String} (hkey : IsBare key) {q : Char} (hq : isBareKey q = false) (rest cs : List Char) :
    key.toList ++ rest ≠ q :: cs := by
  obtain ⟨c, ds, hlist, hc⟩ := hkey.head
  rw [hlist, List.cons_append]
  rintro h
  rw [(List.cons.inj h).1, hq] at hc
  cases hc

theorem skipSpace_start {c : Char} (hc : startsValue c = true) (cs : List Char) : skipSpace (c :: cs) = c :: cs := by
  simp only [startsValue, Bool.and_eq_true, Bool.not_eq_true'] at hc
  rw [skipSpace, List.dropWhile_cons_of_neg (by simp [hc])]

theorem key?_bare {key : String} (hkey : IsBare key) {c : Char} (hc : isBareKey c = false) (cs : List Char) :
    key? e (key.toList ++ c :: cs) = some (key, c :: cs) := by
  have htake : (key.toList ++ c :: cs).takeWhile isBareKey = key.toList := by
    rw [List.takeWhile_append_of_pos hkey.2, List.takeWhile_cons_of_neg (by simp [hc]), List.append_nil]
  have hdrop : (key.toList ++ c :: cs).dropWhile isBareKey = c :: cs := by
    rw [List.dropWhile_append_of_pos hkey.2, List.dropWhile_cons_of_neg (by simp [hc])]
  rw [key?.eq_3 _ _ (hkey.append_ne (by decide) _) (hkey.append_ne (by decide) _), htake, hdrop]
  split
  · rename_i h
    exact absurd h hkey.1
  · rw [String.ofList_toList]

/-- A bare key is a path of one key, up to a space or a bracket. -/
theorem keyPath?_bare (he : 0 < e.nesting) {key : String} (hkey : IsBare key) {c : Char} (hc : isBareKey c = false)
    {cs : List Char} (hpoint : ∀ r, skipSpace (c :: cs) ≠ '.' :: r) :
    keyPath? e (key.toList ++ c :: cs) = some ([key], skipSpace (c :: cs)) := by
  have hskip : skipSpace (key.toList ++ c :: cs) = key.toList ++ c :: cs := by
    obtain ⟨d, ds, hlist, hd⟩ := hkey.head
    rw [hlist]
    exact skipSpace_start (startsValue_of_isBareKey hd) _
  obtain ⟨n, hn⟩ := Nat.exists_eq_succ_of_ne_zero (Nat.ne_of_gt he)
  rw [keyPath?, hn, keyPathFrom, hskip, key?_bare hkey hc]
  simp only [Option.bind_eq_bind, Option.bind_some]
  rfl

theorem lineEnd?_newline (rest : List Char) : lineEnd? ('\n' :: rest) = some rest := rfl

/-! ## Rows -/

/-- A key, the text of its value and the value. -/
structure Row where
  key : String
  text : List Char
  value : Data

namespace Row

/-- The row can be read. -/
structure Ok (e : Edition) (r : Row) : Prop where
  key : IsBare r.key
  value : Written e e.nesting r.text r.value

def line (r : Row) : List Char := r.key.toList ++ (" = ".toList ++ (r.text ++ ['\n']))

/-- Set the value in a table. -/
def putIn (r : Row) (entries : Entries) : Entries := Table.put r.key (.value r.value) entries

/-- Set the values of rows in a table, one after the other. -/
def putAll (rows : List Row) (entries : Entries) : Entries := rows.foldl (fun entries r => r.putIn entries) entries

theorem lookup_putAll {key : String} {rows : List Row} (h : key ∉ rows.map Row.key) (entries : Entries) :
    (putAll rows entries).lookup key = entries.lookup key := by
  induction rows generalizing entries with
  | nil => rfl
  | cons r rows ih =>
    rw [List.map_cons, List.mem_cons, not_or] at h
    have hrest := ih h.2 (r.putIn entries)
    rwa [putIn, Table.lookup_put, if_neg h.1] at hrest

/-- Rows are not more than the characters of their lines. -/
theorem length_le_lines (rows : List Row) : rows.length ≤ (rows.map line).flatten.length := by
  have hlines : ∀ l ∈ rows.map line, l ≠ [] := by
    intro l hl
    obtain ⟨r, -, rfl⟩ := List.mem_map.mp hl
    simp [line]
  have h := length_le_flatten hlines
  rwa [List.length_map] at h

end Row

theorem assign_new {key : String} {entries : Entries} (h : entries.lookup key = none) (v : Data) :
    assign [key] v entries = some (Table.put key (.value v) entries) := by
  simp [assign, within, addEntry, h]

theorem keyValue_row (he : 0 < e.nesting) {r : Row} (hr : r.Ok e) (rest : List Char) :
    keyValue e (some ∘ skipSpace) (value e e.nesting) (r.line ++ rest) =
      some (([r.key], r.value), '\n' :: rest) := by
  have hline : r.line ++ rest = r.key.toList ++ ' ' :: '=' :: ' ' :: (r.text ++ '\n' :: rest) := by simp [Row.line]
  have hequals (cs : List Char) : skipSpace (' ' :: '=' :: cs) = '=' :: cs := rfl
  have hskip : skipSpace (' ' :: (r.text ++ '\n' :: rest)) = r.text ++ '\n' :: rest := by
    obtain ⟨c, cs, hhead, hc⟩ := hr.value.head
    rw [hhead]
    exact skipSpace_start hc _
  rw [hline, keyValue, keyPath?_bare he hr.key (by decide) (by simp [hequals]), hequals]
  simp only [Option.bind_eq_bind, Option.bind_some, Function.comp_apply, hskip, hr.value.reads ('\n' :: rest)
    ⟨'\n', rest, rfl, .inl rfl⟩, skipSpace_start (show startsValue '=' = true by decide)]
  rfl

/-- A table of a document that rows are read into: what becomes of the document with the entries of the table. -/
structure Spot (path : List String) (build : Entries → Entries) : Prop where
  assigns : ∀ key v inner, within false (fun _ entries => assign [key] v entries) path .header (build inner) =
    (assign [key] v inner).map build

theorem spot_root : Spot [] id := ⟨fun key v inner => by rw [Option.map_id]; rfl⟩

theorem spot_table (name : String) (root : Entries) :
    Spot [name] fun inner => Table.put name (.table .header inner) root := by
  constructor
  intro key v inner
  simp only [within, Table.lookup_put_self, Bool.false_eq_true, false_and, if_false, Table.put_put]

/-- A row is read into the table that is open. -/
theorem expression_row (he : 0 < e.nesting) {r : Row} (hr : r.Ok e) {path : List String} {build : Entries → Entries}
    (hspot : Spot path build) {inner : Entries} (hnew : inner.lookup r.key = none) (rest : List Char) :
    expression e ⟨build inner, path⟩ (r.line ++ rest) = some (⟨build (r.putIn inner), path⟩, rest) := by
  have hbracket (cs : List Char) : r.line ++ rest ≠ '[' :: cs := by
    rw [Row.line, List.append_assoc]
    exact hr.key.append_ne (by decide) _ cs
  unfold expression
  split
  · rename_i h
    exact absurd h (hbracket _)
  · rename_i h
    exact absurd h (hbracket _)
  · rw [keyValue_row he hr]
    simp only [Option.bind_eq_bind, Option.bind_some, hspot.assigns, assign_new hnew, Option.map_some, lineEnd?_newline]
    rfl

theorem startsValue_row {r : Row} (hr : r.Ok e) (rest : List Char) :
    ∃ c cs, r.line ++ rest = c :: cs ∧ startsValue c = true := by
  obtain ⟨c, cs, hlist, hc⟩ := hr.key.head
  exact ⟨c, _, by rw [Row.line, hlist]; rfl, startsValue_of_isBareKey hc⟩

/-- One expression after blank lines. -/
theorem linesFrom_expression {d d' : Draft} {cs text rest : List Char} (hgap : skipGap false cs = some text)
    (hne : text ≠ []) (h : expression e d text = some (d', rest)) (n : Nat) :
    linesFrom e (n + 1) d cs = linesFrom e n d' rest := by
  rw [linesFrom, hgap]
  simp only [Option.bind_eq_bind, Option.bind_some]
  rw [h]
  rfl

/-- Rows go into the table that is open, one after the other. -/
theorem linesFrom_rows (he : 0 < e.nesting) {path : List String} {build : Entries → Entries} (hspot : Spot path build)
    (rest : List Char) : ∀ (rows : List Row) (inner : Entries) (n : Nat), (∀ r ∈ rows, r.Ok e) →
      (rows.map Row.key).Nodup → (∀ r ∈ rows, inner.lookup r.key = none) →
      linesFrom e (n + rows.length) ⟨build inner, path⟩ ((rows.map Row.line).flatten ++ rest) =
        linesFrom e n ⟨build (Row.putAll rows inner), path⟩ rest
  | [], inner, n, _, _, _ => rfl
  | r :: rows, inner, n, hok, hkeys, hnew => by
    obtain ⟨hkey, hkeys⟩ := List.nodup_cons.mp hkeys
    have hr : r.Ok e := hok r List.mem_cons_self
    obtain ⟨c, cs, hhead, hc⟩ := startsValue_row hr ((rows.map Row.line).flatten ++ rest)
    have hgap := skipGap_start hc cs
    rw [← hhead] at hgap
    have hexpression := expression_row he hr hspot (hnew r List.mem_cons_self) ((rows.map Row.line).flatten ++ rest)
    rw [List.map_cons, List.flatten_cons, List.append_assoc, List.length_cons, ← Nat.add_assoc,
      linesFrom_expression hgap (by rw [hhead]; exact nofun) hexpression]
    refine linesFrom_rows he hspot rest rows (r.putIn inner) n (fun r' hr' => hok r' (List.mem_cons_of_mem r hr')) hkeys
      fun r' hr' => ?_
    -- The keys of the rows to come are other ones.
    rw [Row.putIn, Table.lookup_put, if_neg, hnew r' (List.mem_cons_of_mem r hr')]
    rintro heq
    exact hkey (heq ▸ List.mem_map_of_mem hr')

/-! ## Tables -/

/-- The header of a table, with an empty line before it. -/
def headerLine (name : String) : List Char := '\n' :: '[' :: (name.toList ++ [']', '\n'])

/-- A header opens a table of its own. -/
theorem linesFrom_header (he : 0 < e.nesting) {name : String} (hname : IsBare name) {root : Entries}
    (hnew : root.lookup name = none) (path : List String) (rest : List Char) (n : Nat) :
    linesFrom e (n + 1) ⟨root, path⟩ (headerLine name ++ rest) =
      linesFrom e n ⟨Table.put name (.table .header []) root, [name]⟩ rest := by
  have hgap : skipGap false (headerLine name ++ rest) = some ('[' :: (name.toList ++ ']' :: '\n' :: rest)) := by
    simp [headerLine, skipGap, isSpace]
  refine linesFrom_expression hgap (List.cons_ne_nil _ _) ?_ n
  have hopen : openTable [name] root = some (Table.put name (.table .header []) root) := by
    simp [openTable, within, hnew]
  have hskip (cs : List Char) : skipSpace (']' :: cs) = ']' :: cs := rfl
  rw [expression, keyPath?_bare he hname (by decide) (by simp [hskip]), hskip]
  · simp only [Option.bind_eq_bind, Option.bind_some, hopen, lineEnd?_newline]
    rfl
  · exact hname.append_ne (by decide) _

/-- A table with its name and rows. -/
structure Division where
  name : String
  rows : List Row

namespace Division

/-- The table can be read. -/
structure Ok (e : Edition) (t : Division) : Prop where
  name : IsBare t.name
  rows : ∀ r ∈ t.rows, r.Ok e
  keys : (t.rows.map Row.key).Nodup

def text (t : Division) : List Char := headerLine t.name ++ (t.rows.map Row.line).flatten

/-- Set the table in a document. -/
def putIn (t : Division) (root : Entries) : Entries :=
  Table.put t.name (.table .header (Row.putAll t.rows [])) root

theorem rows_lt_text (t : Division) : t.rows.length < t.text.length := by
  have h := Row.length_le_lines t.rows
  simp only [text, headerLine, List.length_append, List.length_cons]
  omega

end Division

/-- A header and the rows below it make a table. -/
theorem linesFrom_division (he : 0 < e.nesting) {t : Division} (ht : t.Ok e) {root : Entries}
    (hnew : root.lookup t.name = none) (path : List String) (rest : List Char) (n : Nat) :
    linesFrom e (n + t.rows.length + 1) ⟨root, path⟩ (t.text ++ rest) = linesFrom e n ⟨t.putIn root, [t.name]⟩ rest := by
  rw [Division.text, List.append_assoc, linesFrom_header he ht.name hnew]
  exact linesFrom_rows he (spot_table t.name root) rest t.rows [] n ht.rows ht.keys fun _ _ => rfl

/-- Tables are read one after the other, up to the end of the document. -/
theorem linesFrom_divisions (he : 0 < e.nesting) : ∀ (ts : List Division) (root : Entries) (path : List String) (n : Nat),
    (∀ t ∈ ts, t.Ok e) → (ts.map Division.name).Nodup → (∀ t ∈ ts, root.lookup t.name = none) →
      (ts.map Division.text).flatten.length < n →
      linesFrom e n ⟨root, path⟩ (ts.map Division.text).flatten = some (ts.foldl (fun root t => t.putIn root) root)
  | _, _, _, 0, _, _, _, hn => absurd hn (Nat.not_lt_zero _)
  | [], root, path, n + 1, _, _, _, _ => rfl
  | t :: ts, root, path, n + 1, hok, hnames, hnew, hn => by
    obtain ⟨hname, hnames⟩ := List.nodup_cons.mp hnames
    rw [List.map_cons, List.flatten_cons] at hn ⊢
    rw [List.length_append] at hn
    -- The fuel is enough for the rows of the table and for all characters after it.
    have hrows := t.rows_lt_text
    obtain ⟨k, rfl⟩ : ∃ k, n = k + t.rows.length := ⟨n - t.rows.length, by omega⟩
    rw [linesFrom_division he (hok t List.mem_cons_self) (hnew t List.mem_cons_self)]
    refine linesFrom_divisions he ts _ _ k (fun t' ht' => hok t' (List.mem_cons_of_mem t ht')) hnames (fun t' ht' => ?_)
      (by omega)
    rw [Division.putIn, Table.lookup_put, if_neg, hnew t' (List.mem_cons_of_mem t ht')]
    rintro heq
    exact hname (heq ▸ List.mem_map_of_mem ht')

/-! ## Documents -/

/-- A document: rows in no table, and tables after them. -/
structure Document where
  rows : List Row
  tables : List Division

namespace Document

/-- The document can be read. -/
structure Ok (e : Edition) (d : Document) : Prop where
  rows : ∀ r ∈ d.rows, r.Ok e
  tables : ∀ t ∈ d.tables, t.Ok e
  /-- No two rows or tables share a name. -/
  names : (d.rows.map Row.key ++ d.tables.map Division.name).Nodup

def text (d : Document) : List Char := (d.rows.map Row.line).flatten ++ (d.tables.map Division.text).flatten

def entries (d : Document) : Entries :=
  d.tables.foldl (fun root t => t.putIn root) (Row.putAll d.rows [])

/-- A document starts with a key or a line end, so with no byte order mark. -/
theorem dropMark_text {d : Document} (hd : d.Ok e) : dropMark d.text = d.text := by
  have hmark (c : Char) (cs : List Char) (hc : c.toNat ≠ 0xFEFF) : dropMark (c :: cs) = c :: cs := if_neg hc
  obtain ⟨rows, tables⟩ := d
  cases rows with
  | cons r rows =>
    obtain ⟨c, cs, hlist, hc⟩ := (hd.rows r List.mem_cons_self).key.head
    simp only [text, List.map_cons, List.flatten_cons, Row.line, hlist, List.cons_append]
    refine hmark c _ fun h => ?_
    rw [show c = Char.ofNat 0xFEFF from Char.ofNat_toNat c ▸ h ▸ rfl] at hc
    exact absurd hc (by decide)
  | nil =>
    cases tables with
    | nil => rfl
    | cons t tables => rfl

end Document

/-- A document is read as its entries. -/
theorem parse_document (he : 0 < e.nesting) {d : Document} (hd : d.Ok e) {s : String} (hs : s.toList = d.text) :
    parse e s = some (entriesData d.entries) := by
  obtain ⟨hkeys, hnames, hdisjoint⟩ := List.nodup_append.mp hd.names
  have hrows := Row.length_le_lines d.rows
  have hlength : s.length = (d.rows.map Row.line).flatten.length + (d.tables.map Division.text).flatten.length := by
    rw [← String.length_toList, hs, Document.text, List.length_append]
  obtain ⟨n, hn⟩ : ∃ n, s.length + 1 = n + d.rows.length := ⟨s.length + 1 - d.rows.length, by omega⟩
  have hlines : linesFrom e (s.length + 1) ⟨[], []⟩ d.text = some d.entries := by
    rw [hn, Document.text]
    refine (linesFrom_rows he spot_root _ d.rows [] n hd.rows hkeys fun _ _ => rfl).trans ?_
    refine linesFrom_divisions he d.tables _ _ n hd.tables hnames (fun t ht => ?_) (by omega)
    rw [id, Row.lookup_putAll fun hmem => hdisjoint _ hmem _ (List.mem_map_of_mem ht) rfl]
    rfl
  rw [parse, hs, Document.dropMark_text hd, hlines, Option.map_some]

end SyntaxView.Toml
