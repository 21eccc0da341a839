import Mathlib.Data.List.Nodup
import SyntaxView.Proofs.Data
import SyntaxView.Settings.Decode

/-!
# Reading sections

A section is read by assigning its values one after the other. A setting that only its own name changes (`IsSlot`) can
be told from the value under that name alone, whatever else is assigned (`IsSlot.assignAll`). A section may lie in three
layers: standard values, which are a table, below those of a file, below those of variables. If no table can stand for
the setting, the topmost layer that has a value decides (`takes_layers`). A list in the file keeps this as long as no
table is laid over it (`IsSlot.layers`).

What stands in for a setting that is missing is the standard one (`Settings.unset_eq_standard`), so that data is read
over the standard settings (`Settings.ofData_eq`).
-/

namespace SyntaxView

open Data (over?)

/-! ## Missing settings -/

theorem ParsingSettings.unset_eq_standard : ParsingSettings.unset = .standard := rfl

theorem OutputSettings.unset_eq_standard : OutputSettings.unset = .standard := rfl

namespace Settings

theorem unset_eq_standard : unset = standard := rfl

/-- Data is read over the standard settings. -/
theorem ofData_eq (d : Dialect) (v : Data) : ofData d v = v.asSection d names (assign d) standard := by
  rw [ofData, unset_eq_standard]

/-- A section is read over its standard settings. -/
theorem assign_parsing (d : Dialect) (s : Settings) (v : Data) : assign d s "parsing" v =
    (v.asSection d ParsingSettings.names (ParsingSettings.assign d) .standard).map fun p => { s with parsing := p } := by
  rw [assign, ParsingSettings.unset_eq_standard]

theorem assign_output (d : Dialect) (s : Settings) (v : Data) : assign d s "output" v =
    (v.asSection d OutputSettings.names (OutputSettings.assign d) .standard).map fun o => { s with output := o } := by
  rw [assign, OutputSettings.unset_eq_standard]

end Settings

/-! ## Single settings -/

section Takes

variable {α : Type} {read : Data → Except SettingsError α} {fallback a : α}

/-- The setting is what is read of the value that is given for it, and else the one to fall back on. -/
def Takes (read : Data → Except SettingsError α) (given : Option Data) (fallback a : α) : Prop :=
  match given with
  | some v => read v = .ok a
  | none => a = fallback

/-- No table can stand for the setting. -/
def RefusesTables (read : Data → Except SettingsError α) : Prop := ∀ t a, read (.table t) ≠ .ok a

theorem takes_over (hread : RefusesTables read) {upper lower : Option Data}
    (h : Takes read (over? upper lower) fallback a) :
    (∃ v, upper = some v ∧ read v = .ok a) ∨ upper = none ∧ Takes read lower fallback a := by
  cases upper with
  | none => exact .inr ⟨rfl, h⟩
  | some v =>
    refine .inl ⟨v, rfl, ?_⟩
    cases lower with
    | none => exact h
    | some below =>
      change read (v.laidOver below) = .ok a at h
      rcases Data.laidOver_eq_or_table v below with heq | ⟨t, ht⟩
      · rwa [heq] at h
      · rw [ht] at h
        exact absurd h (hread t a)

/-- Of three layers, the topmost that has a value decides; the lowest has the value to fall back on. -/
theorem takes_layers (hread : RefusesTables read) {upper middle lowest : Option Data}
    (hlowest : Takes read lowest fallback fallback) (h : Takes read (over? upper (over? middle lowest)) fallback a) :
    Takes read (upper <|> middle) fallback a := by
  rcases takes_over hread h with ⟨v, rfl, hv⟩ | ⟨rfl, hrest⟩
  · exact hv
  rcases takes_over hread hrest with ⟨v, rfl, hv⟩ | ⟨rfl, hrest⟩
  · exact hv
  · cases lowest with
    | none => exact hrest
    | some v => exact Except.ok.inj (hrest.symm.trans hlowest)

end Takes

/-! ## Sections -/

/-- The value of a setting in a section: the one under its name in a table, or the one in its place in a list. -/
def Data.settingOf (names : List String) (name : String) : Data → Option Data
  | .table entries => entries.lookup name
  | .list items => items[names.idxOf name]?
  | _ => none

/-- One name assigns the setting, and no other changes it. -/
structure IsSlot {σ α : Type} (assign : σ → String → Data → Except SettingsError σ) (name : String) (get : σ → α)
    (read : Data → Except SettingsError α) : Prop where
  sets : ∀ {s s' : σ} {v : Data}, assign s name v = .ok s' → read v = .ok (get s')
  keeps : ∀ {s s' : σ} {n : String} {v : Data}, n ≠ name → assign s n v = .ok s' → get s' = get s

theorem lookup_zip {names : List String} {items : List Data} {name : String} (h : name ∈ names) :
    (names.zip items).lookup name = items[names.idxOf name]? := by
  induction names generalizing items with
  | nil => cases h
  | cons n names ih =>
    cases items with
    | nil => rfl
    | cons v items =>
      rw [List.zip_cons_cons, Table.lookup_cons]
      by_cases hn : name = n
      · subst hn
        simp
      · rw [if_neg hn, List.idxOf_cons_ne _ (Ne.symm hn), List.getElem?_cons_succ]
        exact ih ((List.mem_cons.mp h).resolve_left hn)

theorem keys_zip_sublist : ∀ (names : List String) (items : List Data),
    ((names.zip items).map Prod.fst).Sublist names
  | [], _ => .slnil
  | _ :: _, [] => List.nil_sublist _
  | n :: names, _ :: items => (keys_zip_sublist names items).cons_cons n

namespace IsSlot

variable {σ α : Type} {assign : σ → String → Data → Except SettingsError σ} {name : String} {get : σ → α}
  {read : Data → Except SettingsError α}

/-- Whatever is assigned, with each name once, the setting is told by its own name. -/
theorem assignAll (hslot : IsSlot assign name get read) {values : List (String × String × Data)} {s s' : σ}
    (hnames : ((values.map Prod.snd).map Prod.fst).Nodup) (h : Data.assignAll assign s values = .ok s') :
    Takes read ((values.map Prod.snd).lookup name) (get s) (get s') := by
  induction values generalizing s with
  | nil =>
    cases h
    rfl
  | cons e rest ih =>
    obtain ⟨key, n, v⟩ := e
    rw [List.map_cons, List.map_cons, List.nodup_cons] at hnames
    rw [Data.assignAll] at h
    split at h
    · cases h
    rename_i s₁ hassign
    have hrest := ih hnames.2 h
    rw [List.map_cons, Table.lookup_cons]
    by_cases hn : name = n
    · subst hn
      rw [Table.lookup_eq_none hnames.1] at hrest
      rw [if_pos rfl]
      exact (hslot.sets hassign).trans (congrArg Except.ok hrest.symm)
    · rw [if_neg hn, ← hslot.keeps (Ne.symm hn) hassign]
      exact hrest

theorem asSection (hslot : IsSlot assign name get read) {d : Dialect} {names : List String} (hnames : names.Nodup)
    (hname : name ∈ names) {start s : σ} {v : Data} (hv : ∀ t, v = .table t → (t.map Prod.fst).Nodup)
    (h : v.asSection d names assign start = .ok s) : Takes read (v.settingOf names name) (get start) (get s) := by
  unfold Data.asSection at h
  split at h
  · cases h
  rename_i values hvalues
  unfold Data.sectionValues at hvalues
  split at hvalues
  · rename_i entries
    cases hvalues
    have hentries : (entries.map fun e => (e.1, e.1, e.2)).map Prod.snd = entries := by
      rw [List.map_map]
      exact List.map_id entries
    have hslots := hslot.assignAll (by rw [hentries]; exact hv entries rfl) h
    rwa [hentries] at hslots
  · rename_i items
    split at hvalues
    · cases hvalues
    · cases hvalues
      have hitems : ((names.zip items).zipIdx.map fun e => (Nat.repr e.2, e.1.1, e.1.2)).map Prod.snd =
          names.zip items := by
        rw [List.map_map]
        exact List.zipIdx_map_fst 0 _
      have hslots := hslot.assignAll (by rw [hitems]; exact hnames.sublist (keys_zip_sublist names items)) h
      rwa [hitems, lookup_zip hname] at hslots
  · cases hvalues

end IsSlot

/-! ## Layers of a section -/

/-- The value of a setting in a section over which a table may lie. The table joins another table, but it replaces a
list. -/
def Data.settingUnder (covered : Bool) (names : List String) (name : String) : Data → Option Data
  | .list items => if covered then none else items[names.idxOf name]?
  | v => v.settingOf names name

theorem Data.settingUnder_false (names : List String) (name : String) (v : Data) :
    v.settingUnder false names name = v.settingOf names name := by
  cases v <;> rfl

theorem Data.settingUnder_true {v : Data} (hv : ∀ t, v ≠ .table t) (names : List String) (name : String) :
    v.settingUnder true names name = none := by
  cases v with
  | table t => exact absurd rfl (hv t)
  | _ => rfl

/-- A table that may have another one laid over it is a table, and each of its entries is told by itself. -/
theorem exists_table_over {upper : Option (List (String × Data))} (hupper : ∀ t ∈ upper, Table.Ascending t)
    {lower : List (String × Data)} (hlower : Table.Ascending lower) :
    ∃ t, over? (upper.map .table) (some (.table lower)) = some (.table t) ∧ Table.Ascending t ∧
      ∀ k, t.lookup k = over? (upper.bind (·.lookup k)) (lower.lookup k) := by
  cases upper with
  | none => exact ⟨lower, rfl, hlower, fun _ => rfl⟩
  | some u =>
    refine ⟨Data.overEntries u lower, congrArg some (Data.laidOver_table u lower), Data.ascending_overEntries hlower,
      fun k => ?_⟩
    exact Data.lookup_overEntries (hupper u rfl).nodup lower k

section Layers

variable {σ α : Type} {assign : σ → String → Data → Except SettingsError σ} {name : String} {get : σ → α}
  {read : Data → Except SettingsError α}

/-- A setting of a section in three tables, which join key by key. -/
theorem IsSlot.layers_of_tables (hslot : IsSlot assign name get read) (hread : RefusesTables read) {d : Dialect}
    {names : List String} (hnames : names.Nodup) (hname : name ∈ names) {start s : σ}
    {lowest : List (String × Data)} (hlowest : Table.Ascending lowest)
    (hstart : Takes read (lowest.lookup name) (get start) (get start)) {file vars : Option (List (String × Data))}
    (hfile : ∀ t ∈ file, Table.Ascending t) (hvars : ∀ t ∈ vars, Table.Ascending t) {v : Data}
    (hv : over? (vars.map .table) (over? (file.map .table) (some (.table lowest))) = some v)
    (h : v.asSection d names assign start = .ok s) :
    Takes read (vars.bind (·.lookup name) <|> file.bind (·.lookup name)) (get start) (get s) := by
  obtain ⟨lower, heq, hlower, hlookup⟩ := exists_table_over hfile hlowest
  obtain ⟨all, heq', hall, hlookup'⟩ := exists_table_over hvars hlower
  rw [heq, heq'] at hv
  cases hv
  have htakes := hslot.asSection hnames hname (fun t ht => by cases ht; exact hall.nodup) h
  rw [Data.settingOf, hlookup', hlookup] at htakes
  exact takes_layers hread hstart htakes

/-- A setting of a section that is no table in the file. It replaces the standard section, and a table over it replaces
it. -/
theorem IsSlot.layers_of_no_table (hslot : IsSlot assign name get read) {d : Dialect} {names : List String}
    (hnames : names.Nodup) (hname : name ∈ names) {start s : σ} {f : Data} (hf : ∀ t, f ≠ .table t)
    {vars : Option (List (String × Data))} (hvars : ∀ t ∈ vars, Table.Ascending t) {v : Data}
    (hv : over? (vars.map .table) (some f) = some v) (h : v.asSection d names assign start = .ok s) :
    Takes read (vars.bind (·.lookup name) <|> f.settingUnder vars.isSome names name) (get start) (get s) := by
  cases vars with
  | none =>
    cases hv
    have htakes := hslot.asSection hnames hname (fun t ht => absurd ht (hf t)) h
    rw [← Data.settingUnder_false] at htakes
    exact htakes
  | some u =>
    rw [Option.map_some, Data.over?_some_some, Data.laidOver_eq_left (.inr hf)] at hv
    cases hv
    have htakes := hslot.asSection hnames hname (fun t ht => by cases ht; exact (hvars u rfl).nodup) h
    rw [Option.bind_some, Option.isSome_some, Data.settingUnder_true hf]
    cases hu : u.lookup name with
    | none => rwa [Data.settingOf, hu] at htakes
    | some x => rwa [Data.settingOf, hu] at htakes

/-- A setting of a section in three layers: of the variables, else of the file, else the standard one. -/
theorem IsSlot.layers (hslot : IsSlot assign name get read) (hread : RefusesTables read) {d : Dialect}
    {names : List String} (hnames : names.Nodup) (hname : name ∈ names) {start s : σ}
    {lowest : List (String × Data)} (hlowest : Table.Ascending lowest)
    (hstart : Takes read (lowest.lookup name) (get start) (get start)) {file : Option Data}
    (hfile : ∀ v ∈ file, v.Proper) {vars : Option (List (String × Data))}
    (hvars : ∀ t ∈ vars, Table.Ascending t) {v : Data}
    (hv : over? (vars.map .table) (over? file (some (.table lowest))) = some v)
    (h : v.asSection d names assign start = .ok s) :
    Takes read (vars.bind (·.lookup name) <|> file.bind (Data.settingUnder vars.isSome names name))
      (get start) (get s) := by
  cases file with
  | none =>
    have horder : ∀ t ∈ (none : Option (List (String × Data))), Table.Ascending t := by rintro t ⟨⟩
    exact hslot.layers_of_tables hread hnames hname hlowest hstart horder hvars hv h
  | some f =>
    by_cases hf : ∃ t, f = .table t
    · obtain ⟨t, rfl⟩ := hf
      have horder : ∀ u ∈ some t, Table.Ascending u := by
        rintro u ⟨⟩
        cases hfile (.table t) rfl with
        | table order => exact order
      exact hslot.layers_of_tables hread hnames hname hlowest hstart horder hvars hv h
    · have hf' : ∀ t, f ≠ .table t := fun t ht => hf ⟨t, ht⟩
      rw [Data.over?_some_some, Data.laidOver_eq_left (.inl hf')] at hv
      exact hslot.layers_of_no_table hnames hname hf' hvars hv h

end Layers

end SyntaxView
