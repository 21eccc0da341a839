import SyntaxView.Proofs.Settings.Saved

/-!
# Settings below a table

The standard settings come in twice: a section starts with them when it is read, and as data they lie below the data of
a file. Both come to the same (`ofData_laidOver_standard`): a table laid over the standard data is read as the table
alone, with the same settings or the same error.

A table laid over another one has the entries of the upper table in their order, and between them those that only the
lower one has (`Covers`). An entry of the lower table assigns what the section has already, because nothing but the
entry of the same name could have changed it (`Fills`). So the entries between can be left out (`assignAll_covers`).
-/

namespace SyntaxView

open Data (over?)

/-! ## Tables laid over tables -/

/-- The entries of a table, each over what lies below it, with others from below between them. -/
inductive Covers (lower : List (String × Data)) : List (String × Data) → List (String × Data) → Prop
  | nil : Covers lower [] []
  | upper {key : String} {v w : Data} {upper all : List (String × Data)}
      (value : over? (some v) (lower.lookup key) = some w) (rest : Covers lower upper all) :
      Covers lower ((key, v) :: upper) ((key, w) :: all)
  | lower {key : String} {b : Data} {upper all : List (String × Data)} (value : lower.lookup key = some b)
      (rest : Covers lower upper all) : Covers lower upper ((key, b) :: all)

theorem key_ne_of_lt {key k : String} (h : key < k) : k ≠ key := by
  rintro rfl
  exact String.lt_irrefl _ h

/-- A key that is not above any key of a table is the first of them, or it is below all. -/
theorem Table.first_or_below {α : Type} {entries : List (String × α)} (h : Table.Ascending entries) {key : String}
    (hleast : ∀ e ∈ entries, e.1 = key ∨ key < e.1) :
    (∃ a rest, entries = (key, a) :: rest) ∨ ∀ e ∈ entries, key < e.1 := by
  cases entries with
  | nil => exact .inr nofun
  | cons first rest =>
    rcases hleast first List.mem_cons_self with rfl | hlt
    · exact .inl ⟨first.2, rest, rfl⟩
    · refine .inr (List.forall_mem_cons.2 ⟨hlt, fun e he => ?_⟩)
      exact String.lt_trans hlt ((List.pairwise_cons.1 h).1 e he)

/-- Entries that ascend cover others if each can be told by itself. -/
theorem covers_of_lookup {lower upper all : List (String × Data)} (hupper : Table.Ascending upper)
    (hall : Table.Ascending all) (hvalue : ∀ e ∈ all, over? (upper.lookup e.1) (lower.lookup e.1) = some e.2)
    (hkeys : ∀ e ∈ upper, e.1 ∈ all.map Prod.fst) : Covers lower upper all := by
  induction all generalizing upper with
  | nil =>
    cases upper with
    | nil => exact .nil
    | cons e upper => exact absurd (hkeys e List.mem_cons_self) List.not_mem_nil
  | cons first all ih =>
    obtain ⟨key, w⟩ := first
    obtain ⟨hfirst, hall⟩ := List.pairwise_cons.1 hall
    have hvalueFirst := hvalue (key, w) List.mem_cons_self
    have hleast : ∀ e ∈ upper, e.1 = key ∨ key < e.1 := by
      intro e he
      refine (List.mem_cons.1 (hkeys e he)).imp_right fun hmem => ?_
      obtain ⟨e', he', hkey⟩ := List.mem_map.1 hmem
      exact hkey ▸ hfirst e' he'
    -- The first of all keys is the first of the upper table, or it comes from below.
    rcases Table.first_or_below hupper hleast with ⟨v, rest, rfl⟩ | hbelow
    · obtain ⟨hlow, hrest⟩ := List.pairwise_cons.1 hupper
      rw [Table.lookup_cons, if_pos rfl] at hvalueFirst
      refine .upper hvalueFirst (ih hrest hall (fun e he => ?_) fun e he => ?_)
      · rw [← hvalue e (List.mem_cons_of_mem _ he), Table.lookup_cons, if_neg (key_ne_of_lt (hfirst e he))]
      · exact (List.mem_cons.1 (hkeys e (List.mem_cons_of_mem _ he))).resolve_left (key_ne_of_lt (hlow e he))
    · have hnone : upper.lookup key = none := by
        refine Table.lookup_eq_none fun hmem => ?_
        obtain ⟨e, he, hkey⟩ := List.mem_map.1 hmem
        exact key_ne_of_lt (hbelow e he) hkey
      rw [hnone] at hvalueFirst
      exact .lower hvalueFirst (ih hupper hall (fun e he => hvalue e (List.mem_cons_of_mem _ he))
        fun e he => (List.mem_cons.1 (hkeys e he)).resolve_left (key_ne_of_lt (hbelow e he)))

theorem covers_overEntries {upper lower : List (String × Data)} (hupper : Table.Ascending upper)
    (hlower : Table.Ascending lower) : Covers lower upper (Data.overEntries upper lower) := by
  have hall : Table.Ascending (Data.overEntries upper lower) := Data.ascending_overEntries hlower
  have hlookup := Data.lookup_overEntries hupper.nodup lower
  refine covers_of_lookup hupper hall (fun e he => ?_) fun e he => ?_
  · rw [← hlookup, Table.lookup_of_mem hall.nodup he]
  · by_contra hkey
    have hnone := Table.lookup_eq_none hkey
    rw [hlookup, Table.lookup_of_mem hupper.nodup he] at hnone
    cases hlow : lower.lookup e.1 <;> simp [hlow] at hnone

/-! ## Reading a section over its data -/

section Reading

variable {σ : Type} {assign : σ → String → Data → Except SettingsError σ} {start : σ}

/-- The data below a name is what the section starts with: it can be laid below any value, and assigning it changes
nothing, as long as the name is not assigned. -/
structure Fills (assign : σ → String → Data → Except SettingsError σ) (start : σ) (key : String) (b : Data) : Prop where
  beneath : ∀ {s : σ} {v : Data}, v.Proper → assign s key (v.laidOver b) = assign s key v
  start : assign start key b = .ok start
  keeps : ∀ {s s' : σ} {n : String} {v : Data}, n ≠ key → assign s n v = .ok s' → assign s key b = .ok s →
    assign s' key b = .ok s'

/-- A slot is filled by data that is read as the value at the start. Assigning the value that the slot has is to change
nothing. -/
theorem IsSlot.fills {α : Type} {key : String} {get : σ → α} {read : Data → Except SettingsError α}
    (hslot : IsSlot assign key get read) (hidle : ∀ {s v}, read v = .ok (get s) → assign s key v = .ok s) {b : Data}
    (hb : read b = .ok (get start)) (hbeneath : ∀ {s v}, v.Proper → assign s key (v.laidOver b) = assign s key v) :
    Fills assign start key b where
  beneath := hbeneath
  start := hidle hb
  keeps hne hassign hs := by
    apply hidle
    rw [hslot.keeps hne hassign]
    exact hslot.sets hs

/-- The entries of a table with the key of each as its name. -/
def namedEntries (entries : List (String × Data)) : List (String × String × Data) :=
  entries.map fun e => (e.1, e.1, e.2)

/-- Entries from below that assign what the section has already can be left out. -/
theorem assignAll_covers {lower upper all : List (String × Data)} (h : Covers lower upper all)
    (hfills : ∀ e ∈ lower, Fills assign start e.1 e.2) (hproper : ∀ e ∈ upper, e.2.Proper)
    (hkeys : (all.map Prod.fst).Nodup) {s : σ}
    (hs : ∀ key ∈ all.map Prod.fst, ∀ b, lower.lookup key = some b → assign s key b = .ok s) :
    Data.assignAll assign s (namedEntries all) = Data.assignAll assign s (namedEntries upper) := by
  -- What lies below the names to come assigns nothing new, as no name comes twice.
  induction h generalizing s with
  | nil => rfl
  | @upper key v w upper all value rest ih =>
    obtain ⟨hkey, hkeys⟩ := List.nodup_cons.1 hkeys
    have hassign : assign s key w = assign s key v := by
      cases hbelow : lower.lookup key with
      | none =>
        rw [hbelow, Data.over?_some_none] at value
        cases value
        rfl
      | some b =>
        rw [hbelow, Data.over?_some_some] at value
        cases value
        exact (hfills (key, b) (Table.mem_of_lookup hbelow)).beneath (hproper (key, v) List.mem_cons_self)
    simp only [namedEntries, List.map_cons, Data.assignAll, hassign]
    cases hnext : assign s key v with
    | error e => rfl
    | ok s' =>
      refine ih (fun e he => hproper e (List.mem_cons_of_mem _ he)) hkeys fun k hk b hb => ?_
      have hne : key ≠ k := fun heq => hkey (heq ▸ hk)
      exact (hfills (k, b) (Table.mem_of_lookup hb)).keeps hne hnext (hs k (List.mem_cons_of_mem _ hk) b hb)
  | @lower key b upper all value rest ih =>
    obtain ⟨-, hkeys⟩ := List.nodup_cons.1 hkeys
    have hassign := hs key List.mem_cons_self b value
    simp only [namedEntries, List.map_cons, Data.assignAll, hassign]
    exact ih hproper hkeys fun k hk => hs k (List.mem_cons_of_mem _ hk)

/-- A section laid over what fills it is read as the section alone. -/
theorem asSection_laidOver {lower : List (String × Data)} (hlower : Table.Ascending lower)
    (hfills : ∀ e ∈ lower, Fills assign start e.1 e.2) {v : Data} (hv : v.Proper) (d : Dialect) (names : List String) :
    (v.laidOver (.table lower)).asSection d names assign start = v.asSection d names assign start := by
  by_cases htable : ∃ t, v = .table t
  · obtain ⟨t, rfl⟩ := htable
    cases hv with
    | table order each =>
      rw [Data.laidOver_table]
      exact assignAll_covers (covers_overEntries order hlower) hfills each (Data.ascending_overEntries hlower).nodup
        fun key _ b hb => (hfills (key, b) (Table.mem_of_lookup hb)).start
  · rw [Data.laidOver_eq_left (.inl fun t ht => htable ⟨t, ht⟩)]

end Reading

/-! ## The standard settings -/

namespace Settings

section Idle

variable {l : Leaf} {v : Data}

/-! Assigning the value that a setting has changes nothing. -/

/-- Reading a value and putting it where it is already changes nothing. -/
theorem map_idle {α σ : Type} {x : Except SettingsError α} {a : α} (h : x = .ok a) {put : α → σ} {s : σ}
    (hput : put a = s) : x.map put = .ok s := by
  rw [h, Except.map, hput]

theorem assign_idle (hl : l.group? = none) {s : Settings} (h : l.read v = .ok (l.get s)) :
    assign .layered s l.key v = .ok s := by
  cases l with
  | version =>
    obtain ⟨n, hn, hs⟩ := map_eq_ok h
    refine map_idle hn ?_
    rw [← hs]
    rfl
  | debug | logLevel => exact map_idle h rfl
  | _ => cases hl

theorem parsing_assign_idle (hl : l.group? = some .parsing) {p : ParsingSettings}
    (h : l.read v = .ok (l.get { standard with parsing := p })) : ParsingSettings.assign .layered p l.key v = .ok p := by
  cases l with
  | excludePchDeclarations | diagnostics | defaultArguments | options => exact map_idle h rfl
  | _ => cases hl

theorem output_assign_idle (hl : l.group? = some .output) {o : OutputSettings}
    (h : l.read v = .ok (l.get { standard with output := o })) : OutputSettings.assign .layered o l.key v = .ok o := by
  cases l with
  | format => exact map_idle h rfl
  | maxDepth =>
    obtain ⟨n, hn, hs⟩ := map_eq_ok h
    refine map_idle hn ?_
    rw [← hs]
    rfl
  | _ => cases hl

end Idle

theorem fills_parsing : ∀ e ∈ parsingEntries .standard, Fills (ParsingSettings.assign .layered) .standard e.1 e.2 := by
  have hleaf {l : Leaf} (hl : l.group? = some .parsing) {b : Data} (hb : l.read b = .ok (l.get standard))
      (htable : ∀ t, b ≠ .table t) : Fills (ParsingSettings.assign .layered) .standard l.key b :=
    (isSlot_parsing_leaf hl).fills (parsing_assign_idle hl) hb fun _ => by rw [Data.laidOver_eq_left (.inr htable)]
  simp only [parsingEntries, textsData, List.forall_mem_cons]
  exact ⟨hleaf (l := .defaultArguments) rfl rfl (by simp), hleaf (l := .diagnostics) rfl rfl (by simp),
    hleaf (l := .excludePchDeclarations) rfl rfl (by simp), hleaf (l := .options) rfl rfl (by simp),
    List.forall_mem_nil _⟩

theorem fills_output : ∀ e ∈ outputEntries .standard, Fills (OutputSettings.assign .layered) .standard e.1 e.2 := by
  have hformat : Fills (OutputSettings.assign .layered) .standard "format" (.text "tree") :=
    (isSlot_output_leaf (l := .format) rfl).fills (output_assign_idle (l := .format) rfl) rfl fun _ => by
      rw [Data.laidOver_eq_left (.inr fun t => by simp)]
  exact List.forall_mem_singleton.2 hformat

theorem fills_standard : ∀ e ∈ savedEntries standard, Fills (assign .layered) standard e.1 e.2 := by
  have hleaf {l : Leaf} (hl : l.group? = none) {b : Data} (hb : l.read b = .ok (l.get standard))
      (htable : ∀ t, b ≠ .table t) : Fills (assign .layered) standard l.key b :=
    (isSlot_single hl).fills (assign_idle hl) hb fun _ => by rw [Data.laidOver_eq_left (.inr htable)]
  have hparsing : Fills (assign .layered) standard "parsing" (.table (parsingEntries .standard)) := by
    refine isSlot_parsing.fills (fun h => ?_) (asSection_parsingEntries .layered .standard .standard) fun hv => ?_
    · rw [assign_parsing, h, Except.map]
    · rw [assign_parsing, assign_parsing, asSection_laidOver _ fills_parsing hv]
      unfold Table.Ascending
      decide
  have houtput : Fills (assign .layered) standard "output" (.table (outputEntries .standard)) := by
    refine isSlot_output.fills (fun h => ?_) (asSection_outputEntries .layered .standard) fun hv => ?_
    · rw [assign_output, h, Except.map]
    · rw [assign_output, assign_output, asSection_laidOver _ fills_output hv]
      unfold Table.Ascending
      decide
  have hversion : Leaf.version.read (.int standard.version.toNat) = .ok standard.version := by
    rw [Leaf.read, asNat_int standard.version.toNat_lt]
    rfl
  simp only [savedEntries, List.forall_mem_cons]
  exact ⟨hleaf (l := .debug) rfl rfl (by simp), hleaf (l := .logLevel) rfl rfl (by simp), houtput, hparsing,
    hleaf (l := .version) rfl hversion (by simp), List.forall_mem_nil _⟩

/-- A table over the data of the standard settings is read as the table alone. -/
theorem ofData_laidOver_standard {v : Data} (hv : v.Proper) :
    ofData .layered (v.laidOver standardLayer) = ofData .layered v := by
  have horder : Table.Ascending (savedEntries standard) := by
    unfold Table.Ascending
    decide
  rw [standardLayer_eq, ofData_eq, ofData_eq]
  exact asSection_laidOver horder fills_standard hv .layered names

end Settings

end SyntaxView
