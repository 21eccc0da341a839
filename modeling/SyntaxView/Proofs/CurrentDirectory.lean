import SyntaxView.Proofs.Ancestors

/-!
# The current directory

A relative path starts at the current directory. So it leads where it leads from `.` (`resolve_dotted`). If the current
directory is one of the system (`Place.IsReal`), it also leads where it leads behind the path of that directory
(`resolve_join_locationPath`). The length of paths comes between the two: a path that is too long leads nowhere
(`found?_of_long`), while the relative one may be short.
-/

namespace SyntaxView

/-- A path seen from `.`. -/
def Path.dotted (p : Path) : Path := (Path.mk ".").join p

section Dotted

variable {p : Path}

theorem Path.dotted_eq (hp : p.isAbsolute = false) : p.dotted = ⟨"./" ++ p.text⟩ := by
  rw [dotted, join, if_neg (by simp [hp])]
  rfl

theorem Path.cut_dotted (hp : p.isAbsolute = false) : cut p.dotted.text.toList = ['.'] :: cut p.text.toList := by
  have hlist : p.dotted.text.toList = ['.'] ++ '/' :: p.text.toList := by
    rw [dotted_eq hp, String.toList_append]
    rfl
  rw [hlist, cut_append]
  rfl

theorem Path.isAbsolute_dotted (hp : p.isAbsolute = false) : p.dotted.isAbsolute = false := by
  rw [isAbsolute, dotted_eq hp, String.toList_append]
  rfl

end Dotted

/-- A character that is no slash is in a text if it is in a piece. -/
theorem Path.mem_cut_iff {x : Char} (hx : x ≠ '/') (cs : List Char) : (∃ piece ∈ cut cs, x ∈ piece) ↔ x ∈ cs := by
  induction cs with
  | nil => simp [cut]
  | cons c cs ih =>
    by_cases hc : c = '/'
    · subst hc
      simp [cut_slash, hx, ih]
    · obtain ⟨p, ps, h⟩ := List.exists_cons_of_ne_nil (cut_ne_nil cs)
      rw [h] at ih
      simp [cut_cons hc h, ← ih, or_assoc]

/-- A path behind another has the bytes of both, and at most a slash more. -/
theorem Path.utf8ByteSize_join (p : Path) {q : Path} (hq : q.isAbsolute = false) :
    p.text.utf8ByteSize + q.text.utf8ByteSize ≤ (p.join q).text.utf8ByteSize ∧
      (p.join q).text.utf8ByteSize ≤ p.text.utf8ByteSize + 1 + q.text.utf8ByteSize := by
  have hslash : "/".utf8ByteSize = 1 := rfl
  rw [join, if_neg (by simp [hq])]
  split
  · rename_i hempty
    rw [List.getLast?_eq_none_iff, String.toList_eq_nil_iff] at hempty
    simp [hempty]
  · split
    · rw [String.utf8ByteSize_append]
      omega
    · rw [String.utf8ByteSize_append, String.utf8ByteSize_append, hslash]
      omega

namespace FileSystem

/-! ## Walks -/

theorem walkLinks_idle (fs : FileSystem) (purpose : Purpose) (n : Nat) (here : Location) {name : String}
    (hname : isIdleName name = true) (names : List String) :
    walkLinks fs purpose n here (name :: names) = walkLinks fs purpose n here names := by
  cases n with
  | zero => rw [walkLinks, walk, if_pos hname]
  | succ n => rw [walkLinks, walk, if_pos hname]

/-- A name that an entry of a directory can have. -/
structure IsEntryName (n : String) : Prop where
  name : Place.IsName n
  notUp : n ≠ ".."
  noNul : Char.ofNat 0 ∉ n.toList
  short : n.utf8ByteSize ≤ nameLimit

section Entries

variable {fs : FileSystem} {here : Location} {name : String} {names : List String}

theorem walkLinks_of_walk {purpose : Purpose} {t : Target} (h : ∀ onLink, walk fs purpose onLink here names = t)
    (n : Nat) : walkLinks fs purpose n here names = t := by
  cases n with
  | zero => exact h _
  | succ n => exact h _

/-- A walk to the name of an entry. -/
theorem walkLinks_last (hname : IsEntryName name) (purpose : Purpose) (n : Nat) :
    (fs.lookup (here ++ [name]) = none → walkLinks fs purpose n here [name] = .vacant (here ++ [name]) false) ∧
    ∀ text, fs.lookup (here ++ [name]) = some (.file text) →
      walkLinks fs purpose n here [name] = .found (here ++ [name]) (.file text) := by
  refine ⟨fun h => walkLinks_of_walk (fun onLink => ?_) n, fun text h => walkLinks_of_walk (fun onLink => ?_) n⟩
  all_goals
    rw [walk, if_neg (by simp [hname.name.1]), if_neg hname.notUp, if_neg (by simp),
      if_neg (Nat.not_lt.2 hname.short), h]
    rfl

/-- A walk over the name of an entry to another name. -/
theorem walkLinks_before (hname : IsEntryName name) (hnames : names.all (· == "") = false) (purpose : Purpose)
    (n : Nat) :
    (fs.lookup (here ++ [name]) = none → walkLinks fs purpose n here (name :: names) = .failed .notFound) ∧
    (fs.lookup (here ++ [name]) = some .directory →
      walkLinks fs purpose n here (name :: names) = walkLinks fs purpose n (here ++ [name]) names) := by
  have hwalk (onLink : Location → List String → Target) :
      (fs.lookup (here ++ [name]) = none → walk fs purpose onLink here (name :: names) = .failed .notFound) ∧
      (fs.lookup (here ++ [name]) = some .directory →
        walk fs purpose onLink here (name :: names) = walk fs purpose onLink (here ++ [name]) names) := by
    rw [walk, if_neg (by simp [hname.name.1]), if_neg hname.notUp, if_neg (by simp [hnames]),
      if_neg (Nat.not_lt.2 hname.short)]
    exact ⟨fun h => by rw [h]; simp [hnames], fun h => by rw [h]⟩
  cases n with
  | zero => exact hwalk _
  | succ n => exact hwalk _

end Entries

section Directories

variable {fs : FileSystem}

/-- A walk goes over directories without turning. -/
theorem walk_directories {onLink : Location → List String → Target} {l : Location} (hnames : ∀ n ∈ l, IsEntryName n)
    (here : Location) (hl : ∀ d n, d ++ [n] <+: l → fs.lookup (here ++ (d ++ [n])) = some .directory)
    (more : List String) : walk fs .find onLink here (l ++ more) = walk fs .find onLink (here ++ l) more := by
  induction l generalizing here with
  | nil => rw [List.nil_append, List.append_nil]
  | cons name l ih =>
    obtain ⟨hname, hnames⟩ := List.forall_mem_cons.1 hnames
    have hdirectory : fs.lookup (here ++ [name]) = some .directory := hl [] name (by simp)
    rw [List.cons_append, walk, if_neg (by simp [hname.name.1]), if_neg hname.notUp, if_neg (by simp),
      if_neg (Nat.not_lt.2 hname.short), hdirectory]
    have hrest := ih hnames (here ++ [name]) fun d n hd => by
      have hlookup := hl (name :: d) n (by simpa using hd)
      simpa using hlookup
    simpa using hrest

theorem walkLinks_directories {l : Location} (hnames : ∀ n ∈ l, IsEntryName n) (n : Nat) (here : Location)
    (hl : ∀ d n, d ++ [n] <+: l → fs.lookup (here ++ (d ++ [n])) = some .directory) (more : List String) :
    walkLinks fs .find n here (l ++ more) = walkLinks fs .find n (here ++ l) more := by
  cases n with
  | zero => exact walk_directories hnames here hl more
  | succ n => exact walk_directories hnames here hl more

end Directories

namespace Place

variable {w : Place} {p : Path}

/-! ## Paths from here -/

theorem resolve_dotted (w : Place) (purpose : Purpose) (hp : p.isAbsolute = false) (hne : p.text ≠ "") :
    w.resolve purpose p.dotted = w.resolve purpose p := by
  have hdotted : p.dotted.text ≠ "" := by
    rw [Path.dotted_eq hp]
    simp
  rw [resolve, resolve, if_neg hdotted, if_neg hne, Path.isAbsolute_dotted hp, hp, Path.cut_dotted hp, List.map_cons,
    walkLinks_idle _ _ _ _ (by decide)]

theorem hasNul_dotted (hp : p.isAbsolute = false) : hasNul p.dotted = hasNul p := by
  rw [hasNul, hasNul, Path.dotted_eq hp, String.toList_append, List.contains_append]
  rfl

/-- The directory that a relative path leads to does not depend on a dot before it. -/
theorem canonical_dotted (w : Place) (hp : p.isAbsolute = false) (hne : p.text ≠ "") :
    w.canonical p.dotted = w.canonical p := by
  rw [canonical, canonical, hasNul_dotted hp, resolve_dotted w .find hp hne]

/-- What a path leads to, if it is not too long. -/
theorem found?_of_short (h : p.text.utf8ByteSize < pathLimit) :
    w.found? p = if hasNul p then none else match w.resolve .find p with | .found _ e => some e | _ => none := by
  split
  · rename_i hnul
    rw [found?, find, if_pos hnul]
  · rename_i hnul
    have htarget : w.target .find p = w.resolve .find p := if_neg (Nat.not_le.2 h)
    have hfound := @found?_eq_target w p (Bool.not_eq_true _ ▸ hnul)
    rw [htarget] at hfound
    exact hfound

/-- A path that is too long leads nowhere. -/
theorem found?_of_long (h : pathLimit ≤ p.text.utf8ByteSize) : w.found? p = none := by
  by_cases hnul : hasNul p = true
  · rw [found?, find, if_pos hnul]
  · rw [found?_eq_target (Bool.not_eq_true _ ▸ hnul), target, if_pos h]

/-- An absolute path does not start at the current directory. -/
theorem find_of_isAbsolute (hp : p.isAbsolute = true) (fs : FileSystem) (here here' : Location) :
    (Place.mk fs here).find p = (Place.mk fs here').find p := by
  simp only [find, target, resolve, hp, if_true]

theorem found?_dotted (w : Place) (hp : p.isAbsolute = false) (hne : p.text ≠ "")
    (hshort : p.dotted.text.utf8ByteSize < pathLimit) : w.found? p.dotted = w.found? p := by
  have hshort' := Nat.lt_of_le_of_lt (Nat.le_of_add_left_le (Path.utf8ByteSize_join _ hp).1) hshort
  rw [found?_of_short hshort, found?_of_short hshort', hasNul_dotted hp, resolve_dotted w .find hp hne]

/-! ## Real places -/

/-- The current directory is one of the system. -/
structure IsReal (w : Place) : Prop where
  names : ∀ n ∈ w.here, IsEntryName n
  directories : ∀ d n, d ++ [n] <+: w.here → w.fs.lookup (d ++ [n]) = some .directory

/-- The path of a directory has a slash before every name. -/
theorem utf8ByteSize_locationPath {l : Location} (hl : l ≠ []) {k : Nat} (hk : ∀ n ∈ l, n.utf8ByteSize = k) :
    (locationPath l).text.utf8ByteSize = l.length * (k + 1) := by
  have hslash : "/".utf8ByteSize = 1 := rfl
  have hintercalate (n : String) (l : Location) (hk : ∀ m ∈ n :: l, m.utf8ByteSize = k) :
      1 + ("/".intercalate (n :: l)).utf8ByteSize = (n :: l).length * (k + 1) := by
    induction l generalizing n with
    | nil =>
      have hn : n.utf8ByteSize = k := hk n (by simp)
      simp [hn, Nat.add_comm]
    | cons m l ih =>
      obtain ⟨hn, hrest⟩ := List.forall_mem_cons.1 hk
      rw [List.length_cons, Nat.succ_mul, ← ih m hrest, String.intercalate_cons_cons, String.utf8ByteSize_append,
        String.utf8ByteSize_append, hslash, hn]
      omega
  obtain ⟨n, l, rfl⟩ := List.exists_cons_of_ne_nil hl
  rw [locationPath, String.utf8ByteSize_append, hslash, hintercalate n l hk]

/-- The names of a relative path behind the path of a directory. -/
theorem cut_join_locationPath {l : Location} (hl : ∀ n ∈ l, IsName n) (hp : p.isAbsolute = false) :
    (Path.cut ((locationPath l).join p).text.toList).map String.ofList =
      "" :: (l ++ (Path.cut p.text.toList).map String.ofList) := by
  by_cases hroot : l = []
  · subst hroot
    have hjoin : ((locationPath []).join p).text.toList = '/' :: p.text.toList := by
      rw [Path.join, if_neg (by simp [hp])]
      simp [locationPath]
    rw [hjoin, Path.cut_slash, List.map_cons, List.nil_append]
  · have hcut : Path.cut (locationPath l).text.toList = [] :: l.map String.toList := by
      rw [toList_locationPath, Path.cut_slash, Path.cut_glue (by simpa using hroot) (slash_not_mem_of_isName hl)]
    have hne : (locationPath l).text ≠ "" := Path.ne_empty_of_isAbsolute (isAbsolute_locationPath l)
    obtain ⟨a, hjoin, ⟨rfl, -⟩ | ha⟩ := Path.toList_join hne hp
    · rw [hjoin, Path.cut_append, hcut]
      simp [Function.comp_def]
    · -- The last piece is a name, so no slash stands at the end.
      rw [ha, Path.cut_append] at hcut
      obtain ⟨l, n, rfl⟩ := (List.eq_nil_or_concat' l).resolve_left hroot
      have hsplit : Path.cut a ++ [[]] = ([] :: l.map String.toList) ++ [n.toList] := by simpa [Path.cut] using hcut
      obtain ⟨-, hlast⟩ := List.append_inj' hsplit rfl
      have hidle := isIdle_toList (hl n (by simp))
      rw [← (List.cons.inj hlast).1] at hidle
      cases hidle

/-- A relative path leads where it leads behind the path of the current directory. -/
theorem resolve_join_locationPath (hw : w.IsReal) (hp : p.isAbsolute = false) (hne : p.text ≠ "") :
    w.resolve .find ((locationPath w.here).join p) = w.resolve .find p := by
  have hnames : ∀ n ∈ w.here, IsName n := fun n hn => (hw.names n hn).name
  have habsolute := Path.isAbsolute_join (isAbsolute_locationPath w.here) p
  rw [resolve, resolve, if_neg (Path.ne_empty_of_isAbsolute habsolute), if_neg hne, if_pos habsolute,
    if_neg (by simp [hp]), cut_join_locationPath hnames hp, walkLinks_idle _ _ _ _ (by decide),
    walkLinks_directories hw.names _ _ hw.directories]
  rfl

theorem hasNul_join_locationPath (hw : w.IsReal) (hp : p.isAbsolute = false) :
    hasNul ((locationPath w.here).join p) = hasNul p := by
  have hnames : ∀ n ∈ w.here, IsName n := fun n hn => (hw.names n hn).name
  have hpieces (t : String) : Char.ofNat 0 ∈ t.toList ↔
      ∃ name ∈ (Path.cut t.toList).map String.ofList, Char.ofNat 0 ∈ name.toList := by
    rw [← Path.mem_cut_iff (by decide)]
    simp
  rw [Bool.eq_iff_iff, hasNul, hasNul, List.contains_iff_mem, List.contains_iff_mem, hpieces, hpieces,
    cut_join_locationPath hnames hp]
  constructor
  · rintro ⟨name, hname, hnul⟩
    rcases List.mem_cons.1 hname with rfl | hname
    · cases hnul
    · rcases List.mem_append.1 hname with hhere | hpath
      · exact absurd hnul (hw.names name hhere).noNul
      · exact ⟨name, hpath, hnul⟩
  · rintro ⟨name, hname, hnul⟩
    exact ⟨name, List.mem_cons_of_mem _ (List.mem_append_right _ hname), hnul⟩

/-- What a relative path leads to is found under an absolute path as well, if that is not too long. -/
theorem found?_join_locationPath (hw : w.IsReal) (hp : p.isAbsolute = false) (hne : p.text ≠ "")
    (hshort : ((locationPath w.here).join p).text.utf8ByteSize < pathLimit) :
    w.found? ((locationPath w.here).join p) = w.found? p := by
  have hshort' := Nat.lt_of_le_of_lt (Nat.le_of_add_left_le (Path.utf8ByteSize_join _ hp).1) hshort
  rw [found?_of_short hshort, found?_of_short hshort', hasNul_join_locationPath hw hp,
    resolve_join_locationPath hw hp hne]

end Place

end FileSystem

end SyntaxView
