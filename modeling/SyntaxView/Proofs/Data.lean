import Mathlib.Data.List.Nodup
import SyntaxView.Data

/-!
# Tables and layers

A table whose keys ascend has each of them once, and setting an entry keeps it so (`Table.ascending_put`). Of a table
laid over another, each entry can be told by itself (`lookup_overEntries`): where both tables have a key, the upper data
is laid over the lower, and else the data of the one that has it stands. Data in which all tables ascend, at any depth,
is `Proper`.
-/

namespace SyntaxView

namespace Table

variable {α : Type}

/-- The keys ascend, so that each stands once. -/
def Ascending (entries : List (String × α)) : Prop := entries.Pairwise fun a b => a.1 < b.1

theorem Ascending.nodup {entries : List (String × α)} (h : Ascending entries) : (entries.map Prod.fst).Nodup := by
  refine List.pairwise_map.mpr (h.imp fun {a b} hlt heq => ?_)
  rw [heq] at hlt
  exact String.lt_irrefl _ hlt

theorem mem_put {key : String} {a : α} {e : String × α} {entries : List (String × α)}
    (h : e ∈ put key a entries) : e = (key, a) ∨ e ∈ entries := by
  fun_induction put key a entries with
  | case1 => exact .inl (List.mem_singleton.mp h)
  | case2 b rest => exact (List.mem_cons.mp h).imp_right (List.mem_cons_of_mem _)
  | case3 k b rest _ _ => exact List.mem_cons.mp h
  | case4 k b rest _ _ ih =>
    rcases List.mem_cons.mp h with rfl | h
    · exact .inr List.mem_cons_self
    · exact (ih h).imp_right (List.mem_cons_of_mem _)

/-- Setting an entry keeps the order of keys. -/
theorem ascending_put {key : String} {a : α} {entries : List (String × α)} (h : Ascending entries) :
    Ascending (put key a entries) := by
  fun_induction put key a entries with
  | case1 => exact List.pairwise_singleton _ _
  | case2 b rest => exact List.pairwise_cons.mpr (List.pairwise_cons.mp h)
  | case3 k b rest _ hlt =>
    refine List.pairwise_cons.mpr ⟨fun e he => ?_, h⟩
    rcases List.mem_cons.mp he with rfl | he
    · exact hlt
    · exact String.lt_trans hlt ((List.pairwise_cons.mp h).1 e he)
  | case4 k b rest hne hnlt ih =>
    obtain ⟨hfirst, hrest⟩ := List.pairwise_cons.mp h
    refine List.pairwise_cons.mpr ⟨fun e he => ?_, ih hrest⟩
    rcases mem_put he with rfl | he
    · -- The key is neither equal nor less, so it is greater.
      exact String.not_le.mp fun hle => hne (String.le_antisymm hle (String.not_lt.mp hnlt))
    · exact hfirst e he

theorem lookup_cons (key : String) (a : α) (entries : List (String × α)) (k : String) :
    ((key, a) :: entries).lookup k = if k = key then some a else entries.lookup k := by
  rw [List.lookup_cons]
  by_cases hk : k = key
  · simp [hk]
  · simp [hk, beq_eq_false_iff_ne.mpr hk]

/-- Setting an entry changes that entry and no other. -/
theorem lookup_put (key : String) (a : α) (entries : List (String × α)) (k : String) :
    (put key a entries).lookup k = if k = key then some a else entries.lookup k := by
  fun_induction put key a entries with
  | case1 => exact lookup_cons key a [] k
  | case2 b rest =>
    rw [lookup_cons, lookup_cons]
    by_cases hk : k = key
    · simp [hk]
    · simp [hk]
  | case3 k' b rest hne _ => rw [lookup_cons]
  | case4 k' b rest hne _ ih =>
    rw [lookup_cons, lookup_cons, ih]
    by_cases hk : k = k'
    · subst hk
      simp [Ne.symm hne]
    · simp [hk]

/-- Of two entries that are set under one key, the later stands. -/
theorem put_put (key : String) (a b : α) (entries : List (String × α)) :
    put key a (put key b entries) = put key a entries := by
  fun_induction put key b entries with
  | case1 => simp [put]
  | case2 c rest => simp [put]
  | case3 k c rest hne hlt => simp [put, hne, hlt]
  | case4 k c rest hne hnlt ih => simp [put, hne, hnlt, ih]

/-- A key that is not among those of a table has no entry. -/
theorem lookup_eq_none {entries : List (String × α)} {k : String} (h : k ∉ entries.map Prod.fst) :
    entries.lookup k = none := by
  rw [List.lookup_eq_none_iff]
  intro e he
  rw [bne_iff_ne]
  rintro rfl
  exact h (List.mem_map_of_mem he)

/-- Where keys are different, each entry is found under its key. -/
theorem lookup_of_mem {entries : List (String × α)} (hn : (entries.map Prod.fst).Nodup) {key : String} {a : α}
    (h : (key, a) ∈ entries) : entries.lookup key = some a := by
  obtain ⟨before, after, rfl⟩ := List.append_of_mem h
  rw [List.lookup_eq_some_iff]
  refine ⟨before, after, rfl, fun e he => ?_⟩
  rw [List.map_append, List.nodup_append] at hn
  have hne := hn.2.2 e.1 (List.mem_map_of_mem he) key (by simp)
  simpa using fun h' => hne h'.symm

theorem mem_of_lookup {entries : List (String × α)} {key : String} {a : α} (h : entries.lookup key = some a) :
    (key, a) ∈ entries := by
  obtain ⟨before, after, rfl, -⟩ := List.lookup_eq_some_iff.mp h
  simp

@[simp] theorem lookup_put_self (key : String) (a : α) (entries : List (String × α)) :
    (put key a entries).lookup key = some a := by
  rw [lookup_put, if_pos rfl]

end Table

namespace Data

/-! ## Layers -/

/-- What stands under a key of a table laid over another, by what stands there in both. -/
def over? : Option Data → Option Data → Option Data
  | some v, some below => some (v.laidOver below)
  | some v, none => some v
  | none, below => below

@[simp] theorem over?_none (below : Option Data) : over? none below = below := rfl

@[simp] theorem over?_some_none (v : Data) : over? (some v) none = some v := rfl

@[simp] theorem over?_some_some (v below : Data) : over? (some v) (some below) = some (v.laidOver below) := rfl

theorem laidOver_table (upper lower : List (String × Data)) :
    (table upper).laidOver (table lower) = table (overEntries upper lower) := by
  rw [laidOver]

/-- Unless both are tables, the upper data replaces the lower. -/
theorem laidOver_eq_left {v below : Data} (h : (∀ t, v ≠ .table t) ∨ ∀ t, below ≠ .table t) : v.laidOver below = v := by
  cases v with
  | table upper =>
    cases below with
    | table lower => exact (h.elim (fun h => h upper rfl) (fun h => h lower rfl)).elim
    | _ => rw [laidOver]; simp
  | _ => rw [laidOver]; simp

/-- Laid over something, data is what it was or a table. -/
theorem laidOver_eq_or_table (v below : Data) : v.laidOver below = v ∨ ∃ t, v.laidOver below = .table t := by
  by_cases h : (∀ t, v ≠ .table t) ∨ ∀ t, below ≠ .table t
  · exact .inl (laidOver_eq_left h)
  · simp only [not_or, not_forall, ne_eq, not_not] at h
    obtain ⟨⟨upper, rfl⟩, lower, rfl⟩ := h
    exact .inr ⟨_, laidOver_table upper lower⟩

/-- Each entry of a table laid over another can be told by itself. -/
theorem lookup_overEntries {upper : List (String × Data)} (h : (upper.map Prod.fst).Nodup)
    (lower : List (String × Data)) (k : String) :
    (overEntries upper lower).lookup k = over? (upper.lookup k) (lower.lookup k) := by
  induction upper generalizing lower with
  | nil => rw [overEntries]; rfl
  | cons e rest ih =>
    obtain ⟨key, v⟩ := e
    rw [List.map_cons, List.nodup_cons] at h
    rw [overEntries, ih h.2, Table.lookup_put, Table.lookup_cons]
    by_cases hk : k = key
    · subst hk
      rw [Table.lookup_eq_none h.1, if_pos rfl, if_pos rfl, over?_none]
      cases lower.lookup k with
      | none => rfl
      | some below => rfl
    · rw [if_neg hk, if_neg hk]

theorem ascending_overEntries {upper lower : List (String × Data)} (h : Table.Ascending lower) :
    Table.Ascending (overEntries upper lower) := by
  induction upper generalizing lower with
  | nil => rw [overEntries]; exact h
  | cons e rest ih =>
    rw [overEntries]
    exact ih (Table.ascending_put h)

/-! ## Order at any depth -/

/-- The keys of all tables ascend, at any depth. -/
inductive Proper : Data → Prop
  | nothing : Proper .nothing
  | bool (b : Bool) : Proper (.bool b)
  | int (n : Int) : Proper (.int n)
  | float : Proper .float
  | text (s : String) : Proper (.text s)
  | char (c : Char) : Proper (.char c)
  | list {items : List Data} (each : ∀ v ∈ items, Proper v) : Proper (.list items)
  | table {entries : List (String × Data)} (order : Table.Ascending entries) (each : ∀ e ∈ entries, Proper e.2) :
      Proper (.table entries)

end Data

end SyntaxView
