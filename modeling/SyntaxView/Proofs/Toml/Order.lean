import SyntaxView.Proofs.Data
import SyntaxView.Settings.Wrapped
import SyntaxView.Toml.Reader

/-!
# The order of keys in TOML documents

A document has each key once: the tables of what is read ascend, at any depth (`parse_proper`). Values are read before
they are put into tables, and entries come into a table by `Table.put` alone, so the two are told one after the other:
what the readers of values give is proper (`value_proper`), and what is done to the entries of a document keeps them so
(`within_proper`). Putting wrapped values in their places changes nothing about it (`unwrap_proper`).
-/

namespace SyntaxView.Toml

/-! ## Entries -/

/-- All tables of an item ascend, at any depth. -/
inductive Item.Proper : Item → Prop
  | value {v : Data} (proper : v.Proper) : Item.Proper (.value v)
  | table {origin : Origin} {entries : Entries} (order : Table.Ascending entries)
      (each : ∀ e ∈ entries, Item.Proper e.2) : Item.Proper (.table origin entries)
  | series {tables : List Entries} (order : ∀ t ∈ tables, Table.Ascending t)
      (each : ∀ t ∈ tables, ∀ e ∈ t, Item.Proper e.2) : Item.Proper (.series tables)

/-- The entries of a table ascend, and so do all tables below. -/
structure EntriesProper (entries : Entries) : Prop where
  order : Table.Ascending entries
  each : ∀ e ∈ entries, e.2.Proper

namespace EntriesProper

theorem nil : EntriesProper [] := ⟨List.Pairwise.nil, nofun⟩

theorem lookup {entries : Entries} (h : EntriesProper entries) {key : String} {i : Item}
    (hlookup : entries.lookup key = some i) : i.Proper := by
  obtain ⟨before, after, rfl, -⟩ := List.lookup_eq_some_iff.mp hlookup
  exact h.each (key, i) (by simp)

theorem put {entries : Entries} (h : EntriesProper entries) {i : Item} (hi : i.Proper) (key : String) :
    EntriesProper (Table.put key i entries) := by
  refine ⟨Table.ascending_put h.order, fun e he => ?_⟩
  rcases Table.mem_put he with rfl | he
  · exact hi
  · exact h.each e he

theorem toItem {entries : Entries} (h : EntriesProper entries) (origin : Origin) : (Item.table origin entries).Proper :=
  .table h.order h.each

theorem ofTable {entries : Entries} {origin : Origin} (h : (Item.table origin entries).Proper) :
    EntriesProper entries := by
  cases h with
  | table order each => exact ⟨order, each⟩

theorem ofSeries {tables : List Entries} (h : (Item.series tables).Proper) : ∀ t ∈ tables, EntriesProper t := by
  cases h with
  | series order each => exact fun t ht => ⟨order t ht, each t ht⟩

theorem toSeries {tables : List Entries} (h : ∀ t ∈ tables, EntriesProper t) : (Item.series tables).Proper :=
  .series (fun t ht => (h t ht).order) fun t ht => (h t ht).each

end EntriesProper

/-- A change of the entries of a table below keeps order if the change does. -/
theorem within_proper {pointed : Bool} {change : Origin → Entries → Option Entries}
    (hchange : ∀ origin entries entries', EntriesProper entries → change origin entries = some entries' →
      EntriesProper entries')
    {path : List String} {origin : Origin} {entries entries' : Entries} (h : EntriesProper entries)
    (hwithin : within pointed change path origin entries = some entries') : EntriesProper entries' := by
  fun_induction within pointed change path origin entries generalizing entries' with
  | case1 origin entries => exact hchange origin entries entries' h hwithin
  | case2 key path origin entries hnone o =>
    rename_i ih
    obtain ⟨inner, hinner, rfl⟩ := Option.map_eq_some_iff.mp hwithin
    exact h.put ((ih .nil hinner).toItem _) key
  | case3 => cases hwithin
  | case4 => cases hwithin
  | case5 key path origin entries tables hseries last hlast ih =>
    obtain ⟨inner, hinner, rfl⟩ := Option.map_eq_some_iff.mp hwithin
    have htables := EntriesProper.ofSeries (h.lookup hseries)
    have hinner := ih (htables last (List.mem_of_getLast? hlast)) hinner
    refine h.put (EntriesProper.toSeries fun t ht => ?_) key
    rcases List.mem_append.mp ht with ht | ht
    · exact htables t (List.dropLast_subset _ ht)
    · rw [List.mem_singleton.mp ht]
      exact hinner
  | case6 => cases hwithin
  | case7 key path origin entries o inner htable _ ih =>
    obtain ⟨inner', hinner, rfl⟩ := Option.map_eq_some_iff.mp hwithin
    exact h.put ((ih (EntriesProper.ofTable (h.lookup htable)) hinner).toItem o) key

theorem assign_proper {path : List String} {v : Data} (hv : v.Proper) {entries entries' : Entries}
    (h : EntriesProper entries) (hassign : assign path v entries = some entries') : EntriesProper entries' := by
  simp only [assign] at hassign
  split at hassign
  · cases hassign
  · refine within_proper (fun origin es es' hes hadd => ?_) h hassign
    unfold addEntry at hadd
    split at hadd
    · cases hadd
    split at hadd
    · cases hadd
    · cases hadd
      exact hes.put (.value hv) _

theorem openTable_proper {path : List String} {root root' : Entries} (h : EntriesProper root)
    (hopen : openTable path root = some root') : EntriesProper root' := by
  unfold openTable at hopen
  split at hopen
  · cases hopen
  · refine within_proper (fun origin es es' hes hput => ?_) h hopen
    split at hput
    · cases hput
      exact hes.put (EntriesProper.nil.toItem _) _
    · rename_i hlookup
      cases hput
      exact hes.put ((EntriesProper.ofTable (hes.lookup hlookup)).toItem _) _
    · cases hput

theorem openSeries_proper {path : List String} {root root' : Entries} (h : EntriesProper root)
    (hopen : openSeries path root = some root') : EntriesProper root' := by
  unfold openSeries at hopen
  split at hopen
  · cases hopen
  · refine within_proper (fun origin es es' hes hput => ?_) h hopen
    split at hput
    · cases hput
      refine hes.put (EntriesProper.toSeries fun t ht => ?_) _
      rw [List.mem_singleton.mp ht]
      exact .nil
    · rename_i tables hlookup
      cases hput
      refine hes.put (EntriesProper.toSeries fun t ht => ?_) _
      rcases List.mem_append.mp ht with ht | ht
      · exact EntriesProper.ofSeries (hes.lookup hlookup) t ht
      · rw [List.mem_singleton.mp ht]
        exact .nil
    · cases hput

/-! ## Finished data -/

theorem entriesData_eq_map : ∀ entries : Entries, entriesData entries = entries.map fun e => (e.1, e.2.toData)
  | [] => rfl
  | (key, i) :: rest => by rw [entriesData, entriesData_eq_map rest, List.map_cons]

theorem seriesData_eq_map : ∀ tables : List Entries, seriesData tables = tables.map fun t => .table (entriesData t)
  | [] => rfl
  | t :: rest => by rw [seriesData, seriesData_eq_map rest, List.map_cons]

/-- What is known of the items of a table is known of its data. -/
theorem entriesData_proper {entries : Entries} (order : Table.Ascending entries)
    (each : ∀ e ∈ entries, e.2.toData.Proper) :
    Table.Ascending (entriesData entries) ∧ ∀ e ∈ entriesData entries, e.2.Proper := by
  rw [entriesData_eq_map]
  refine ⟨List.pairwise_map.mpr order, fun e he => ?_⟩
  obtain ⟨item, hitem, rfl⟩ := List.mem_map.mp he
  exact each item hitem

theorem Item.Proper.toData {i : Item} (h : i.Proper) : i.toData.Proper := by
  induction h with
  | value proper => exact proper
  | table order each ih =>
    rw [Item.toData]
    obtain ⟨horder, heach⟩ := entriesData_proper order ih
    exact .table horder heach
  | series order each ih =>
    rw [Item.toData, seriesData_eq_map]
    refine .list fun v hv => ?_
    obtain ⟨t, ht, rfl⟩ := List.mem_map.mp hv
    obtain ⟨horder, heach⟩ := entriesData_proper (order t ht) (ih t ht)
    exact .table horder heach

/-! ## Values -/

theorem wordValue?_proper {e : Edition} {cs : List Char} {v : Data} (h : wordValue? e cs = some v) : v.Proper := by
  unfold wordValue? at h
  split at h
  · cases h
    exact .bool true
  split at h
  · cases h
    exact .bool false
  split at h
  · cases h
    exact .table (List.pairwise_singleton _ _) fun e he => by rw [List.mem_singleton.mp he]; exact .text _
  split at h
  · split at h
    · cases h
      exact .int _
    · cases h
  · split at h
    · cases h
      exact .float
    · cases h

theorem scalarValue_proper {e : Edition} {cs rest : List Char} {v : Data} (h : scalarValue e cs = some (v, rest)) :
    v.Proper := by
  unfold scalarValue at h
  split at h
  · obtain ⟨r, -, hr⟩ := Option.map_eq_some_iff.mp h
    cases hr
    exact .text _
  · obtain ⟨r, -, hr⟩ := Option.map_eq_some_iff.mp h
    cases hr
    exact .text _
  · obtain ⟨v', hv', hr⟩ := Option.map_eq_some_iff.mp h
    cases hr
    exact wordValue?_proper hv'

section Brackets

variable {read : List Char → Option (Data × List Char)}

theorem arrayItems_proper (hread : ∀ cs v rest, read cs = some (v, rest) → v.Proper) {n : Nat} {cs rest : List Char}
    {vs : List Data} (h : arrayItems read n cs = some (vs, rest)) : ∀ v ∈ vs, v.Proper := by
  induction n generalizing cs vs with
  | zero => cases h
  | succ n ih =>
    rw [arrayItems, Option.bind_eq_bind, Option.bind_eq_some_iff] at h
    obtain ⟨cs', -, h⟩ := h
    split at h
    · cases h
      exact nofun
    · simp only [Option.bind_eq_bind, Option.bind_eq_some_iff] at h
      obtain ⟨⟨v, cs₁⟩, hv, cs₂, -, h⟩ := h
      split at h
      · simp only [Option.bind_eq_some_iff] at h
        obtain ⟨⟨vs', rest'⟩, hvs', h⟩ := h
        cases h
        intro w hw
        rcases List.mem_cons.mp hw with rfl | hw
        · exact hread _ _ _ hv
        · exact ih hvs' w hw
      · cases h
        intro w hw
        rw [List.mem_singleton.mp hw]
        exact hread _ _ _ hv
      · cases h

theorem keyValue_proper {e : Edition} {skip : List Char → Option (List Char)}
    (hread : ∀ cs v rest, read cs = some (v, rest) → v.Proper) {cs rest : List Char} {path : List String} {v : Data}
    (h : keyValue e skip read cs = some ((path, v), rest)) : v.Proper := by
  simp only [keyValue, Option.bind_eq_bind, Option.bind_eq_some_iff] at h
  obtain ⟨⟨path', cs₁⟩, -, cs₂, -, h⟩ := h
  split at h
  · simp only [Option.bind_eq_some_iff] at h
    obtain ⟨cs₃, -, ⟨v', rest'⟩, hv, h⟩ := h
    cases h
    exact hread _ _ _ hv
  · cases h

theorem inlineEntries_proper {e : Edition} (hread : ∀ cs v rest, read cs = some (v, rest) → v.Proper) {n : Nat}
    {entries entries' : Entries} {cs rest : List Char} (hentries : EntriesProper entries)
    (h : inlineEntries e read n entries cs = some (entries', rest)) : EntriesProper entries' := by
  induction n generalizing cs entries with
  | zero => cases h
  | succ n ih =>
    simp only [inlineEntries, Option.bind_eq_bind, Option.bind_eq_some_iff] at h
    obtain ⟨⟨⟨path, v⟩, cs₁⟩, hv, added, hadded, cs₂, -, h⟩ := h
    have hadded := assign_proper (keyValue_proper hread hv) hentries hadded
    split at h
    · cases h
      exact hadded
    · simp only [Option.bind_eq_some_iff] at h
      obtain ⟨cs₃, -, h⟩ := h
      split at h
      · split at h
        · cases h
          exact hadded
        · cases h
      · exact ih hadded h
    · cases h

theorem inlineTable_proper {e : Edition} (hread : ∀ cs v rest, read cs = some (v, rest) → v.Proper)
    {cs rest : List Char} {v : Data} (h : inlineTable e read cs = some (v, rest)) : v.Proper := by
  simp only [inlineTable, Option.bind_eq_bind, Option.bind_eq_some_iff] at h
  obtain ⟨cs₁, -, h⟩ := h
  split at h
  · cases h
    exact .table List.Pairwise.nil nofun
  · simp only [Option.bind_eq_some_iff] at h
    obtain ⟨⟨entries, rest'⟩, hentries, h⟩ := h
    cases h
    exact ((inlineEntries_proper hread .nil hentries).toItem .header).toData

end Brackets

theorem value_proper {e : Edition} {depth : Nat} {cs rest : List Char} {v : Data}
    (h : value e depth cs = some (v, rest)) : v.Proper := by
  induction depth generalizing cs rest v with
  | zero => exact scalarValue_proper h
  | succ depth ih =>
    unfold value at h
    split at h
    · obtain ⟨r, hr, h⟩ := Option.map_eq_some_iff.mp h
      cases h
      exact .list (arrayItems_proper (fun _ _ _ => ih) hr)
    · exact inlineTable_proper (fun _ _ _ => ih) h
    · exact scalarValue_proper h

/-! ## Documents -/

theorem expression_proper {e : Edition} {d d' : Draft} {cs rest : List Char} (hd : EntriesProper d.root)
    (h : expression e d cs = some (d', rest)) : EntriesProper d'.root := by
  unfold expression at h
  split at h
  · simp only [Option.bind_eq_bind, Option.bind_eq_some_iff] at h
    obtain ⟨⟨path, cs₁⟩, -, h⟩ := h
    split at h
    · simp only [Option.bind_eq_some_iff] at h
      obtain ⟨root, hroot, cs₂, -, h⟩ := h
      cases h
      exact openSeries_proper hd hroot
    · cases h
  · simp only [Option.bind_eq_bind, Option.bind_eq_some_iff] at h
    obtain ⟨⟨path, cs₁⟩, -, h⟩ := h
    split at h
    · simp only [Option.bind_eq_some_iff] at h
      obtain ⟨root, hroot, cs₂, -, h⟩ := h
      cases h
      exact openTable_proper hd hroot
    · cases h
  · simp only [Option.bind_eq_bind, Option.bind_eq_some_iff] at h
    obtain ⟨⟨⟨path, v⟩, cs₁⟩, hv, root, hroot, cs₂, -, h⟩ := h
    cases h
    have hv : v.Proper := keyValue_proper (fun _ _ _ => value_proper) hv
    exact within_proper (fun _ _ _ => assign_proper hv) hd hroot

theorem linesFrom_proper {e : Edition} {n : Nat} {d : Draft} {cs : List Char} {root : Entries}
    (hd : EntriesProper d.root) (h : linesFrom e n d cs = some root) : EntriesProper root := by
  induction n generalizing d cs with
  | zero => cases h
  | succ n ih =>
    simp only [linesFrom, Option.bind_eq_bind, Option.bind_eq_some_iff] at h
    obtain ⟨cs', -, h⟩ := h
    split at h
    · cases h
      exact hd
    · simp only [Option.bind_eq_some_iff] at h
      obtain ⟨⟨d', rest⟩, hd', h⟩ := h
      exact ih (expression_proper hd hd') h

/-- The tables of a document ascend, at any depth. -/
theorem parse_proper {e : Edition} {s : String} {entries : List (String × Data)} (h : parse e s = some entries) :
    Data.Proper (.table entries) := by
  obtain ⟨root, hroot, rfl⟩ := Option.map_eq_some_iff.mp h
  exact ((linesFrom_proper .nil hroot).toItem .header).toData

end SyntaxView.Toml

namespace SyntaxView.Settings.Wrapped

/-! ## Wrapped values -/

theorem ofEntries_proper {entries : List (String × Data)} (order : Table.Ascending entries)
    (each : ∀ e ∈ entries, e.2.Proper) : (ofEntries entries).Proper := by
  unfold ofEntries
  cases h : entries.lookup valueKey with
  | none => exact .table order each
  | some v =>
    obtain ⟨before, after, rfl, -⟩ := List.lookup_eq_some_iff.mp h
    exact each (valueKey, v) (by simp)

theorem keys_unwrapEntries? : ∀ {entries entries' : List (String × Data)},
    unwrapEntries? entries = some entries' → (entries'.map Prod.fst).Sublist (entries.map Prod.fst)
  | [], entries', h => by
    rw [unwrapEntries?] at h
    cases h
    exact List.Sublist.slnil
  | (key, v) :: rest, entries', h => by
    rw [unwrapEntries?] at h
    split at h
    · rename_i w unwrapped _ hrest
      have hkeys := keys_unwrapEntries? hrest
      split at h
      · split at h
        · cases h
          exact hkeys.cons _
        · cases h
      · cases h
        exact hkeys.cons_cons _
    · cases h

theorem keys_unwrapTop? : ∀ {entries entries' : List (String × Data)},
    unwrapTop? entries = some entries' → entries'.map Prod.fst = entries.map Prod.fst
  | [], entries', h => by
    cases h
    rfl
  | (key, v) :: rest, entries', h => by
    rw [unwrapTop?] at h
    split at h
    · rename_i w unwrapped _ hrest
      cases h
      simp only [List.map_cons, keys_unwrapTop? hrest]
    · cases h

/-- The order of keys depends on the keys only. -/
theorem ascending_of_sublist {entries entries' : List (String × Data)} (h : Table.Ascending entries)
    (hkeys : (entries'.map Prod.fst).Sublist (entries.map Prod.fst)) : Table.Ascending entries' :=
  List.pairwise_map.mp ((List.pairwise_map.mpr h).sublist hkeys)

theorem proper_of_unwrap_self {v w : Data} (hv : v.Proper) (hself : unwrap? v = some v) (h : unwrap? v = some w) :
    w.Proper := by
  rw [hself] at h
  cases h
  exact hv

mutual
/-- Putting wrapped values in their places keeps data proper. -/
theorem unwrap_proper : ∀ {v w : Data}, v.Proper → unwrap? v = some w → w.Proper
  | .list items, w, .list each, h => by
    rw [unwrap?] at h
    obtain ⟨items', hitems, rfl⟩ := Option.map_eq_some_iff.mp h
    exact .list (unwrapItems_proper each hitems)
  | .table entries, w, .table order each, h => by
    rw [unwrap?] at h
    obtain ⟨entries', hentries, rfl⟩ := Option.map_eq_some_iff.mp h
    exact ofEntries_proper (ascending_of_sublist order (keys_unwrapEntries? hentries))
      (unwrapEntries_proper each hentries)
  | .nothing, _, hv, h => proper_of_unwrap_self hv rfl h
  | .bool _, _, hv, h => proper_of_unwrap_self hv rfl h
  | .int _, _, hv, h => proper_of_unwrap_self hv rfl h
  | .float, _, hv, h => proper_of_unwrap_self hv rfl h
  | .text _, _, hv, h => proper_of_unwrap_self hv rfl h
  | .char _, _, hv, h => proper_of_unwrap_self hv rfl h

theorem unwrapItems_proper : ∀ {items items' : List Data}, (∀ v ∈ items, v.Proper) →
    unwrapItems? items = some items' → ∀ v ∈ items', v.Proper
  | [], items', _, h => by
    rw [unwrapItems?] at h
    cases h
    exact nofun
  | v :: rest, items', each, h => by
    rw [unwrapItems?] at h
    split at h
    · rename_i w unwrapped hv hrest
      cases h
      intro x hx
      rcases List.mem_cons.mp hx with rfl | hx
      · exact unwrap_proper (each v List.mem_cons_self) hv
      · exact unwrapItems_proper (fun y hy => each y (List.mem_cons_of_mem v hy)) hrest x hx
    · cases h

theorem unwrapEntries_proper : ∀ {entries entries' : List (String × Data)}, (∀ e ∈ entries, e.2.Proper) →
    unwrapEntries? entries = some entries' → ∀ e ∈ entries', e.2.Proper
  | [], entries', _, h => by
    rw [unwrapEntries?] at h
    cases h
    exact nofun
  | (key, v) :: rest, entries', each, h => by
    rw [unwrapEntries?] at h
    split at h
    · rename_i w unwrapped hv hrest
      have hunwrapped := unwrapEntries_proper (fun e he => each e (List.mem_cons_of_mem (key, v) he)) hrest
      split at h
      · split at h
        · cases h
          exact hunwrapped
        · cases h
      · cases h
        intro e he
        rcases List.mem_cons.mp he with rfl | he
        · exact unwrap_proper (each (key, v) List.mem_cons_self) hv
        · exact hunwrapped e he
    · cases h
end

theorem unwrapTop_proper : ∀ {entries entries' : List (String × Data)}, (∀ e ∈ entries, e.2.Proper) →
    unwrapTop? entries = some entries' → ∀ e ∈ entries', e.2.Proper
  | [], entries', _, h => by
    cases h
    exact nofun
  | (key, v) :: rest, entries', each, h => by
    rw [unwrapTop?] at h
    split at h
    · rename_i w unwrapped hv hrest
      cases h
      intro e he
      rcases List.mem_cons.mp he with rfl | he
      · exact unwrap_proper (each (key, v) List.mem_cons_self) hv
      · exact unwrapTop_proper (fun e he => each e (List.mem_cons_of_mem (key, v) he)) hrest e he
    · cases h

/-- What a settings file holds, wrapped values in their places, ascends at any depth. -/
theorem document_proper {e : Toml.Edition} {text : String} {entries : List (String × Data)}
    (h : (Toml.parse e text).bind unwrapTop? = some entries) : Data.Proper (.table entries) := by
  obtain ⟨raw, hraw, hunwrap⟩ := Option.bind_eq_some_iff.mp h
  cases Toml.parse_proper hraw with
  | table order each =>
    refine .table (ascending_of_sublist order ?_) (unwrapTop_proper each hunwrap)
    rw [keys_unwrapTop? hunwrap]

end SyntaxView.Settings.Wrapped
