import Mathlib.Data.List.Infix
import SyntaxView.Proofs.FileSystem
import SyntaxView.Proofs.Path

/-!
# Directories above

The path of a location is told by its names, and the paths above it are those of the locations above
(`ancestors_locationPath`), nearest first. What is found below a path is found only if the path leads to a directory
(`isDirectory_of_found_below`): the walk to it goes over that directory, whatever links are on the way.
-/

namespace SyntaxView.FileSystem

/-! ## Walks that go on -/

section Walks

variable {fs : FileSystem} {more : List String} {l : Location} {e : Entry}

/-- A walk that finds something beyond some names has found a directory there. -/
theorem exists_directory_of_walk (hmore : more ≠ []) {onLink : Location → List String → Target}
    (hlink : ∀ q names, onLink q (names ++ more) = .found l e → ∃ d, onLink q names = .found d .directory)
    (here : Location) (names : List String) (h : walk fs .find onLink here (names ++ more) = .found l e) :
    ∃ d, walk fs .find onLink here names = .found d .directory := by
  induction names generalizing here with
  | nil => exact ⟨here, rfl⟩
  | cons name names ih =>
    have hnames : (names ++ more).isEmpty = false := by simp [hmore]
    rw [List.cons_append, walk] at h
    rw [walk]
    by_cases hidle : isIdleName name = true
    · rw [if_pos hidle] at h ⊢
      exact ih here h
    rw [if_neg hidle] at h ⊢
    by_cases hup : name = ".."
    · rw [if_pos hup] at h ⊢
      exact ih here.dropLast h
    rw [if_neg hup, if_neg (by simp)] at h ⊢
    by_cases hlong : nameLimit < name.utf8ByteSize
    · rw [if_pos hlong] at h
      cases h
    rw [if_neg hlong] at h ⊢
    cases hentry : fs.lookup (here ++ [name]) with
    | none =>
      simp only [hentry] at h
      split at h <;> cases h
    | some entry =>
      rw [hentry] at h
      cases entry with
      | directory => exact ih _ h
      | link target =>
        simp only [reduceCtorEq, false_and, ↓reduceIte] at h ⊢
        by_cases htarget : target = ""
        · rw [if_pos htarget] at h
          cases h
        · rw [if_neg htarget, ← List.append_assoc] at h
          rw [if_neg htarget]
          exact hlink _ _ h
      | file text | fullDevice | nullDevice => simp [hnames] at h

theorem exists_directory_of_walkLinks (hmore : more ≠ []) : ∀ (n : Nat) (here : Location) (names : List String),
    walkLinks fs .find n here (names ++ more) = .found l e → ∃ d, walkLinks fs .find n here names = .found d .directory
  | 0, here, names, h => exists_directory_of_walk hmore (fun _ _ h => by cases h) here names h
  | n + 1, here, names, h => exists_directory_of_walk hmore (exists_directory_of_walkLinks hmore n) here names h

end Walks

namespace Place

variable {w : Place}

theorem hasNul_of_found? {p : Path} {e : Entry} (h : w.found? p = some e) : hasNul p = false := by
  rw [← Bool.not_eq_true]
  intro hnul
  simp [found?, find, hnul] at h

/-- What is found below a path is found only if the path leads to a directory. -/
theorem isDirectory_of_found_below {t n : String} (ht : t ≠ "") {e : Entry}
    (h : w.found? ⟨t ++ "/" ++ n⟩ = some e) : w.isDirectory ⟨t⟩ = true := by
  have hnul := hasNul_of_found? h
  have hnul' : hasNul ⟨t⟩ = false := by
    simp only [hasNul, String.toList_append, List.contains_append, Bool.or_eq_false_iff] at hnul ⊢
    exact hnul.1.1
  have habsolute : (Path.mk (t ++ "/" ++ n)).isAbsolute = (Path.mk t).isAbsolute := by
    have hhead : (t.toList ++ '/' :: n.toList).head? = t.toList.head? :=
      List.head?_append_of_ne_nil _ (mt String.toList_eq_nil_iff.1 ht)
    simp [Path.isAbsolute, hhead]
  have hcut : (Path.cut (t ++ "/" ++ n).toList).map String.ofList =
      (Path.cut t.toList).map String.ofList ++ (Path.cut n.toList).map String.ofList := by
    simp [Path.cut_append]
  have hmore : (Path.cut n.toList).map String.ofList ≠ [] := by simp [Path.cut_ne_nil]
  rw [found?_eq_target hnul] at h
  rw [isDirectory, found?_eq_target hnul']
  simp only [target, resolve, ht, habsolute, hcut, String.utf8ByteSize_append, String.append_eq_empty_iff] at h ⊢
  by_cases hlong : pathLimit ≤ t.utf8ByteSize + "/".utf8ByteSize + n.utf8ByteSize
  · simp [hlong] at h
  · rw [if_neg hlong] at h
    rw [if_neg (by omega)]
    simp only [false_and, ↓reduceIte] at h ⊢
    split at h
    · rename_i l e' hwalk
      obtain ⟨d, hd⟩ := exists_directory_of_walkLinks hmore _ _ _ hwalk
      simp [hd]
    · cases h

/-! ## Paths of locations -/

/-- The name of an entry is neither empty nor `.`, and it has no slash in it. -/
def IsName (name : String) : Prop := isIdleName name = false ∧ '/' ∉ name.toList

instance (name : String) : Decidable (IsName name) := inferInstanceAs (Decidable (_ ∧ _))

section Locations

variable {l : Location}

theorem toList_locationPath (l : Location) : (locationPath l).text.toList = '/' :: Path.glue (l.map String.toList) := by
  have hglue : ∀ ps : List (List Char), List.intercalate ['/'] ps = Path.glue ps := by
    intro ps
    induction ps with
    | nil => rfl
    | cons p ps ih =>
      cases ps with
      | nil => simp [Path.glue]
      | cons q ps => simp [List.intercalate_cons_cons, Path.glue, ih]
  simp [locationPath, String.toList_intercalate, hglue]

theorem isAbsolute_locationPath (l : Location) : (locationPath l).isAbsolute = true := by
  simp [Path.isAbsolute, toList_locationPath]

theorem slash_not_mem_of_isName (hl : ∀ n ∈ l, IsName n) : ∀ p ∈ l.map String.toList, '/' ∉ p := by
  intro p hp
  obtain ⟨n, hn, rfl⟩ := List.mem_map.1 hp
  exact (hl n hn).2

theorem isIdle_toList {n : String} (hn : IsName n) : Path.isIdle n.toList = false := by
  have hidle := hn.1
  simp only [isIdleName, Path.isIdle, Bool.or_eq_false_iff, beq_eq_false_iff_ne, ne_eq] at hidle ⊢
  exact ⟨fun h => hidle.1 (String.toList_eq_nil_iff.1 h), fun h => hidle.2 (String.toList_injective h)⟩

/-- At the end of a location there is nothing to drop. -/
theorem dropIdleEnd_names (hl : ∀ n ∈ l, IsName n) :
    Path.dropIdleEnd (l.map String.toList) = l.map String.toList := by
  rcases List.eq_nil_or_concat l with rfl | ⟨l, n, rfl⟩
  · rfl
  · have hn := isIdle_toList (hl n (by simp))
    simp [Path.dropIdleEnd, hn]

theorem split_locationPath (hl : ∀ n ∈ l, IsName n) (hne : l ≠ []) :
    (locationPath l).split = (.root, l.map String.toList) := by
  rw [Path.split, toList_locationPath]
  simp only [Prod.mk.injEq, true_and]
  exact Path.cut_glue (by simpa using hne) (slash_not_mem_of_isName hl)

/-- The root has no parent, and the parent of another location is the location without its last name. -/
theorem parent_locationPath_concat {n : String} (hl : ∀ m ∈ l ++ [n], IsName m) :
    (locationPath (l ++ [n])).parent = some (locationPath l) := by
  have hl' : ∀ m ∈ l, IsName m := fun m hm => hl m (List.mem_append_left _ hm)
  rw [Path.parent, split_locationPath hl (by simp)]
  simp only [dropIdleEnd_names hl]
  simp only [List.map_append, List.map_cons, List.map_nil, List.reverse_append, List.reverse_cons, List.reverse_nil,
    List.nil_append, List.cons_append, List.reverse_reverse, dropIdleEnd_names hl', Option.some.injEq, Path.assemble]
  rw [← toList_locationPath, String.ofList_toList]

theorem upTo_locationPath (hl : ∀ n ∈ l, IsName n) {k : Nat} (hk : l.length ≤ k) :
    Path.upTo k (locationPath l) = l.inits.reverse.map locationPath := by
  induction l using List.reverseRecOn generalizing k with
  | nil =>
    have hroot : (locationPath []).parent = none := by decide
    cases k with
    | zero => rfl
    | succ k => simp [Path.upTo, hroot]
  | append_singleton l n ih =>
    obtain ⟨k, rfl⟩ : ∃ j, k = j + 1 := Nat.exists_eq_succ_of_ne_zero (by simp at hk; omega)
    have hrest := ih (fun m hm => hl m (List.mem_append_left _ hm)) (k := k) (by simpa using hk)
    rw [Path.upTo, parent_locationPath_concat hl]
    simp [hrest, List.inits_append]

/-- A location has no more names than its path has components. -/
theorem length_le_components (hl : ∀ n ∈ l, IsName n) : l.length ≤ (locationPath l).components.length := by
  by_cases hne : l = []
  · simp [hne]
  · have hsome : ∀ p ∈ l.map String.toList, (Path.component? p).isSome = true := by
      intro p hp
      obtain ⟨n, hn, rfl⟩ := List.mem_map.1 hp
      rw [Option.isSome_iff_ne_none, ne_eq, Path.component?_eq_none_iff, isIdle_toList (hl n hn)]
      exact Bool.false_ne_true
    rw [Path.components, split_locationPath hl hne, List.length_append, List.length_filterMap_eq_countP,
      List.countP_eq_length.2 hsome, List.length_map]
    exact Nat.le_add_left _ _

/-- The paths above a location are those of the locations above it, nearest first. -/
theorem ancestors_locationPath (hl : ∀ n ∈ l, IsName n) :
    (locationPath l).ancestors = l.inits.reverse.map locationPath :=
  upTo_locationPath hl (length_le_components hl)

end Locations

end Place

end SyntaxView.FileSystem
