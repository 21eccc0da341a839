import SyntaxView.FileSystem

/-!
# Reading what was written

A path that can be opened for writing leads to a file, to a place where none is yet, or to a device
(`Place.create_cases`). Once a text is written there, the same path leads to it (`Place.read_set_of_spot`): the way to
the file goes over directories and links only, so the new file changes nothing on it. A path opened for writing leads
where it leads when it is looked up, but for one with a slash at its end, which is refused (`walkLinks_write`).

Making directories adds directories and changes nothing that exists (`Place.makeDirectories_adds`), so each path that
led somewhere leads there still (`Place.found?_of_addsDirectories`).
-/

namespace SyntaxView.FileSystem

theorem set_set (fs : FileSystem) (l : Location) (e e' : Entry) : (fs.set l e).set l e' = fs.set l e' := by
  simp only [set, mk.injEq]
  funext q
  split
  · rfl
  · rfl

/-! ## Spots for files -/

/-- The target is a file at the location, or a place for one. -/
def Target.IsSpot (l : Location) (t : Target) : Prop :=
  (∃ slash, t = .vacant l slash) ∨ ∃ text, t = .found l (.file text)

theorem Target.not_isSpot_failed (l : Location) (e : OsError) : ¬ (Target.failed e).IsSpot l := by
  rintro (⟨slash, h⟩ | ⟨text, h⟩)
  · cases h
  · cases h

/-- At the location there is a file or nothing. -/
def IsFree (fs : FileSystem) (l : Location) : Prop := fs.lookup l = none ∨ ∃ text, fs.lookup l = some (.file text)

section Walks

variable {fs : FileSystem} {l : Location} {onLink onLink' : Location → List String → Target}

theorem isFree_of_walk {purpose : Purpose} (hlink : ∀ q names, (onLink q names).IsSpot l → fs.IsFree l)
    (here : Location) (names : List String) (h : (walk fs purpose onLink here names).IsSpot l) : fs.IsFree l := by
  fun_induction walk fs purpose onLink here names with
  | case2 _ _ _ _ ih => exact ih h
  | case3 _ _ _ ih => exact ih h
  | case6 _ _ _ _ _ _ _ _ hnone =>
    rcases h with ⟨slash, h⟩ | ⟨text, h⟩
    · cases h
      exact .inl hnone
    · cases h
  | case8 _ _ _ _ _ _ _ _ _ ih => exact ih h
  | case11 => exact hlink _ _ h
  | case12 _ _ _ _ _ _ _ _ _ _ _ hsome =>
    rcases h with ⟨slash, h⟩ | ⟨text, h⟩
    · cases h
    · cases h
      exact .inr ⟨text, hsome⟩
  | _ => rcases h with ⟨slash, h⟩ | ⟨text, h⟩ <;> cases h

/-- A location that is not free for a file is left as it is. -/
theorem lookup_set_of_isFree {e : Entry} (hl : fs.IsFree l) {q : Location} (hq : fs.lookup q = some e)
    (he : ∀ text, e ≠ .file text) (new : Entry) : (fs.set l new).lookup q = some e := by
  rw [lookup_set_of_ne, hq]
  rintro rfl
  rcases hl with hnone | ⟨text, htext⟩
  · rw [hnone] at hq
    cases hq
  · rw [htext] at hq
    cases hq
    exact he text rfl

/-- A walk for writing that ends at a spot ends, once a file is there, at the file. -/
theorem walk_set_of_spot {text : String} (hl : fs.IsFree l)
    (hlink : ∀ q names, (onLink q names).IsSpot l → onLink' q names = .found l (.file text))
    (here : Location) (names : List String) (h : (walk fs .write onLink here names).IsSpot l) :
    walk (fs.set l (.file text)) .find onLink' here names = .found l (.file text) := by
  fun_induction walk fs .write onLink here names with
  | case2 here name names hidle ih =>
    rw [walk, if_pos hidle]
    exact ih h
  | case3 here names hidle ih =>
    rw [walk, if_neg hidle, if_pos rfl]
    exact ih h
  | case6 here name names last hidle hup hwrite hlong hnone hlast =>
    rcases h with ⟨slash, h⟩ | ⟨text, h⟩
    · -- No slash follows the name, or else the path would have been refused.
      have hempty : names = [] := by simpa [hlast] using hwrite
      cases h
      simp [walk, hidle, hup, hlong, hempty]
    · cases h
  | case8 here name names last hidle hup hwrite hlong hdir ih =>
    have hdir' := lookup_set_of_isFree hl hdir nofun (.file text)
    rw [walk, if_neg hidle, if_neg hup, if_neg (by simp), if_neg hlong, hdir']
    exact ih h
  | case11 here name names last hidle hup hwrite hlong target hlink' hmake htarget =>
    have hlink'' := lookup_set_of_isFree hl hlink' nofun (.file text)
    rw [walk, if_neg hidle, if_neg hup, if_neg (by simp), if_neg hlong, hlink'']
    simp only [htarget, reduceCtorEq, false_and, ↓reduceIte]
    exact hlink _ _ h
  | case12 here name names last hidle hup hwrite hlong e _ _ hsome hlast =>
    rcases h with ⟨slash, h⟩ | ⟨text, h⟩
    · cases h
    · cases h
      have hempty : names = [] := by simpa using hlast
      simp [walk, hidle, hup, hlong, hempty]
  | _ => rcases h with ⟨slash, h⟩ | ⟨text, h⟩ <;> cases h

/-- A walk for writing goes as a walk for finding goes, or it is refused. -/
theorem walk_write (hlink : ∀ q names, onLink q names = onLink' q names ∨ onLink q names = .failed .isDirectory)
    (here : Location) (names : List String) : walk fs .write onLink here names = walk fs .find onLink' here names ∨
      walk fs .write onLink here names = .failed .isDirectory := by
  induction names generalizing here with
  | nil => exact .inl rfl
  | cons name names ih =>
    simp only [walk]
    by_cases hidle : isIdleName name = true
    · simp only [if_pos hidle]
      exact ih here
    by_cases hup : name = ".."
    · simp only [if_neg hidle, if_pos hup]
      exact ih here.dropLast
    by_cases hslash : names.all (· == "") = true ∧ (!names.isEmpty) = true
    · exact .inr (by simp only [hidle, hup, hslash, and_self, ↓reduceIte]; rfl)
    simp only [hidle, hup, hslash, reduceCtorEq, and_false, false_and, or_false, ↓reduceIte]
    split
    · exact .inl rfl
    cases fs.lookup (here ++ [name]) with
    | none => exact .inl rfl
    | some e =>
      cases e with
      | directory => exact ih (here ++ [name])
      | link target =>
        dsimp only
        split
        · exact .inl rfl
        · exact hlink _ _
      | _ => exact .inl rfl

/-- A walk for writing does not stop at a link. -/
theorem walk_write_ne_link {target : String} (hlink : ∀ q names, onLink q names ≠ .found l (.link target))
    (here : Location) (names : List String) : walk fs .write onLink here names ≠ .found l (.link target) := by
  fun_induction walk fs .write onLink here names with
  | case2 _ _ _ _ ih => exact ih
  | case3 _ _ _ ih => exact ih
  | case8 _ _ _ _ _ _ _ _ _ ih => exact ih
  | case9 _ _ _ _ _ _ _ _ _ _ hmake => cases hmake.1
  | case11 => exact hlink _ _
  | case12 _ _ _ _ _ _ _ _ e _ he =>
    intro h
    cases h
    exact he target rfl
  | _ => exact nofun

end Walks

section Links

variable {fs : FileSystem} {l : Location}

theorem isFree_of_walkLinks {purpose : Purpose} : ∀ (n : Nat) (here : Location) (names : List String),
    (walkLinks fs purpose n here names).IsSpot l → fs.IsFree l
  | 0, here, names, h => isFree_of_walk (fun _ _ h => absurd h (Target.not_isSpot_failed l _)) here names h
  | n + 1, here, names, h => isFree_of_walk (isFree_of_walkLinks n) here names h

theorem walkLinks_set_of_spot {text : String} (hl : fs.IsFree l) : ∀ (n : Nat) (here : Location) (names : List String),
    (walkLinks fs .write n here names).IsSpot l →
      walkLinks (fs.set l (.file text)) .find n here names = .found l (.file text)
  | 0, here, names, h => walk_set_of_spot hl (fun _ _ h => absurd h (Target.not_isSpot_failed l _)) here names h
  | n + 1, here, names, h => walk_set_of_spot hl (walkLinks_set_of_spot hl n) here names h

theorem walkLinks_write : ∀ (n : Nat) (here : Location) (names : List String),
    walkLinks fs .write n here names = walkLinks fs .find n here names ∨
      walkLinks fs .write n here names = .failed .isDirectory
  | 0, here, names => walk_write (fun _ _ => .inl rfl) here names
  | n + 1, here, names => walk_write (walkLinks_write n) here names

theorem walkLinks_write_ne_link {target : String} : ∀ (n : Nat) (here : Location) (names : List String),
    walkLinks fs .write n here names ≠ .found l (.link target)
  | 0, here, names => walk_write_ne_link (fun _ _ h => by cases h) here names
  | n + 1, here, names => walk_write_ne_link (walkLinks_write_ne_link n) here names

end Links

/-! ## Making directories -/

section Vacant

variable {fs : FileSystem} {l : Location} {slash : Bool}

theorem lookup_of_walk_vacant {purpose : Purpose} {onLink : Location → List String → Target}
    (hlink : ∀ q names, onLink q names = .vacant l slash → fs.lookup l = none) (here : Location) (names : List String)
    (h : walk fs purpose onLink here names = .vacant l slash) : fs.lookup l = none := by
  fun_induction walk fs purpose onLink here names with
  | case2 _ _ _ _ ih => exact ih h
  | case3 _ _ _ ih => exact ih h
  | case6 _ _ _ _ _ _ _ _ hnone =>
    cases h
    exact hnone
  | case8 _ _ _ _ _ _ _ _ _ ih => exact ih h
  | case11 => exact hlink _ _ h
  | _ => cases h

theorem lookup_of_walkLinks_vacant {purpose : Purpose} : ∀ (n : Nat) (here : Location) (names : List String),
    walkLinks fs purpose n here names = .vacant l slash → fs.lookup l = none
  | 0, here, names, h => lookup_of_walk_vacant (fun _ _ h => by cases h) here names h
  | n + 1, here, names, h => lookup_of_walk_vacant (lookup_of_walkLinks_vacant n) here names h

end Vacant

/-- The systems differ by directories that only the second has. -/
def AddsDirectories (fs fs' : FileSystem) : Prop :=
  ∀ l, fs'.lookup l = fs.lookup l ∨ fs.lookup l = none ∧ fs'.lookup l = some .directory

namespace AddsDirectories

variable {fs fs' fs'' : FileSystem} {l : Location}

theorem refl (fs : FileSystem) : fs.AddsDirectories fs := fun _ => .inl rfl

theorem trans (h : fs.AddsDirectories fs') (h' : fs'.AddsDirectories fs'') : fs.AddsDirectories fs'' := by
  intro l
  rcases h l with heq | ⟨hnone, hdirectory⟩
  · rw [← heq]
    exact h' l
  · rcases h' l with heq | ⟨hnone', -⟩
    · exact .inr ⟨hnone, heq.trans hdirectory⟩
    · rw [hdirectory] at hnone'
      cases hnone'

theorem lookup (h : fs.AddsDirectories fs') {e : Entry} (hl : fs.lookup l = some e) : fs'.lookup l = some e := by
  rcases h l with heq | ⟨hnone, -⟩
  · exact heq.trans hl
  · rw [hnone] at hl
    cases hl

theorem set (hl : fs.lookup l = none) : fs.AddsDirectories (fs.set l .directory) := by
  intro q
  by_cases hq : q = l
  · subst hq
    exact .inr ⟨hl, lookup_set_self fs q .directory⟩
  · exact .inl (lookup_set_of_ne fs .directory hq)

/-- A walk that finds something goes over entries that are there, so it finds the same among more directories. -/
theorem walk (h : fs.AddsDirectories fs') {onLink onLink' : Location → List String → Target} {e : Entry}
    (hlink : ∀ q names, onLink q names = .found l e → onLink' q names = .found l e) (here : Location)
    (names : List String) (hfound : FileSystem.walk fs .find onLink here names = .found l e) :
    FileSystem.walk fs' .find onLink' here names = .found l e := by
  fun_induction FileSystem.walk fs .find onLink here names with
  | case1 => exact hfound
  | case2 here name names hidle ih =>
    rw [FileSystem.walk, if_pos hidle]
    exact ih hfound
  | case3 here names hidle ih =>
    rw [FileSystem.walk, if_neg hidle, if_pos rfl]
    exact ih hfound
  | case8 here name names last hidle hup hwrite hlong hdirectory ih =>
    rw [FileSystem.walk, if_neg hidle, if_neg hup, if_neg (by simp), if_neg hlong, h.lookup hdirectory]
    exact ih hfound
  | case9 _ _ _ _ _ _ _ _ _ _ hmake => cases hmake.1
  | case11 here name names last hidle hup hwrite hlong target htarget hmake hne =>
    rw [FileSystem.walk, if_neg hidle, if_neg hup, if_neg (by simp), if_neg hlong, h.lookup htarget]
    simp only [hne, reduceCtorEq, false_and, ↓reduceIte]
    exact hlink _ _ hfound
  | case12 here name names last hidle hup hwrite hlong e' hdirectory htarget hsome hlast =>
    rw [FileSystem.walk, if_neg hidle, if_neg hup, if_neg (by simp), if_neg hlong, h.lookup hsome]
    have hempty : names = [] := by simpa using hlast
    subst hempty
    cases e' with
    | directory => exact absurd rfl hdirectory
    | link target => exact absurd rfl (htarget target)
    | _ => exact hfound
  | _ => cases hfound

theorem walkLinks (h : fs.AddsDirectories fs') {e : Entry} : ∀ (n : Nat) (here : Location) (names : List String),
    FileSystem.walkLinks fs .find n here names = .found l e → FileSystem.walkLinks fs' .find n here names = .found l e
  | 0, here, names, hfound => h.walk (fun _ _ h => by cases h) here names hfound
  | n + 1, here, names, hfound => h.walk (h.walkLinks n) here names hfound

end AddsDirectories

/-! ## Paths -/

namespace Place

variable {w : Place} {p : Path}

/-- A path opened for writing leads where it leads when it is looked up, or it is refused. -/
theorem target_write (w : Place) (p : Path) :
    w.target .write p = w.target .find p ∨ ∃ e, w.target .write p = .failed e := by
  unfold target resolve
  split
  · exact .inl rfl
  split
  · exact .inl rfl
  · exact (walkLinks_write _ _ _).imp id fun h => ⟨_, h⟩

/-- Once a file is at a spot, its path leads to it. -/
theorem target_set_of_spot {l : Location} {text : String} (h : (w.target .write p).IsSpot l) :
    (Place.mk (w.fs.set l (.file text)) w.here).target .find p = .found l (.file text) := by
  unfold target resolve at h ⊢
  split
  · rename_i hlong
    rw [if_pos hlong] at h
    exact absurd h (Target.not_isSpot_failed l _)
  · rename_i hlong
    rw [if_neg hlong] at h
    split
    · rename_i hempty
      rw [if_pos hempty] at h
      exact absurd h (Target.not_isSpot_failed l _)
    · rename_i hempty
      rw [if_neg hempty] at h
      exact walkLinks_set_of_spot (isFree_of_walkLinks _ _ _ h) _ _ _ h

theorem target_write_ne_link (w : Place) (p : Path) (l : Location) (link : String) :
    w.target .write p ≠ .found l (.link link) := by
  unfold target resolve
  split
  · exact nofun
  split
  · exact nofun
  · exact walkLinks_write_ne_link _ _ _

theorem found?_eq_target (h : hasNul p = false) :
    w.found? p = match w.target .find p with | .found _ e => some e | _ => none := by
  unfold found? find
  rw [h]
  cases w.target .find p <;> rfl

/-- What is written to a spot is read under its path. -/
theorem read_set_of_spot {l : Location} {text : String} (hnul : hasNul p = false) (h : (w.target .write p).IsSpot l) :
    (Place.mk (w.fs.set l (.file text)) w.here).read p = .ok text := by
  unfold read find
  rw [hnul, target_set_of_spot h]
  rfl

/-- What a path opened for writing can lead to: a spot for a file, or one of two devices. -/
theorem create_cases {opened : Opened} {fs : FileSystem} (h : w.create p = .ok (opened, fs)) : hasNul p = false ∧
    ((∃ l, opened = .file l ∧ fs = w.fs.set l (.file "") ∧ (w.target .write p).IsSpot l ∧
        ∀ e, w.found? p = some e → ∃ text, e = .file text) ∨
      (opened = .fullDevice ∧ fs = w.fs ∧ w.found? p = some .fullDevice) ∨
      (opened = .nullDevice ∧ fs = w.fs ∧ w.found? p = some .nullDevice)) := by
  unfold create at h
  split at h
  · cases h
  rename_i hnul
  rw [Bool.not_eq_true] at hnul
  refine ⟨hnul, ?_⟩
  rw [found?_eq_target hnul]
  rcases w.target_write p with hfind | ⟨e, hfailed⟩
  · rw [← hfind]
    have hlink := w.target_write_ne_link p
    cases htarget : w.target .write p with
    | failed e => simp [htarget] at h
    | vacant l slash =>
      simp only [htarget, Except.ok.injEq, Prod.mk.injEq] at h
      exact .inl ⟨l, h.1.symm, h.2.symm, .inl ⟨slash, rfl⟩, nofun⟩
    | found l e =>
      cases e with
      | directory => simp [htarget] at h
      | file text =>
        simp only [htarget, Except.ok.injEq, Prod.mk.injEq] at h
        refine .inl ⟨l, h.1.symm, h.2.symm, .inr ⟨text, rfl⟩, fun e he => ?_⟩
        cases he
        exact ⟨text, rfl⟩
      | link target => exact absurd htarget (hlink l target)
      | fullDevice =>
        simp only [htarget, Except.ok.injEq, Prod.mk.injEq] at h
        exact .inr (.inl ⟨h.1.symm, h.2.symm, rfl⟩)
      | nullDevice =>
        simp only [htarget, Except.ok.injEq, Prod.mk.injEq] at h
        exact .inr (.inr ⟨h.1.symm, h.2.symm, rfl⟩)
  · simp [hfailed] at h

/-- The path of a location is absolute, and the empty path has none. -/
theorem canonical_ok {d : Path} (h : w.canonical p = .ok d) : d.isAbsolute = true ∧ p.text ≠ "" := by
  unfold canonical at h
  split at h
  · cases h
  · constructor
    · obtain ⟨r, -, rfl⟩ : ∃ r, (w.resolve .find p).toExcept = .ok r ∧ locationPath r.1 = d := by
        cases hr : (w.resolve .find p).toExcept with
        | error e =>
          rw [hr] at h
          cases h
        | ok r =>
          rw [hr] at h
          exact ⟨r, rfl, Except.ok.inj h⟩
      simp [Path.isAbsolute, locationPath]
    · intro hempty
      rw [resolve, if_pos hempty] at h
      cases h

theorem read_of_found {text : String} (h : w.found? p = some (.file text)) : w.read p = .ok text := by
  unfold found? at h
  unfold read
  split at h
  · rename_i r hfind
    obtain ⟨l, e⟩ := r
    cases h
    rw [hfind]
  · cases h

/-- Where a text was written without failure, the path leads to it, unless it leads to the device that forgets. -/
theorem write_cases {text : String} (htext : text.isEmpty = false) {fs : FileSystem} (h : w.write p text = .ok fs) :
    (Place.mk fs w.here).found? p = some (.file text) ∨ fs = w.fs ∧ w.found? p = some .nullDevice := by
  unfold write at h
  split at h
  · cases h
  · rename_i l fs' hcreate
    obtain ⟨hnul, ⟨l', hl, rfl, hspot, -⟩ | ⟨hopened, -⟩ | ⟨hopened, -⟩⟩ := create_cases hcreate
    · cases hl
      cases h
      rw [set_set, found?_eq_target hnul, target_set_of_spot hspot]
      exact .inl rfl
    · cases hopened
    · cases hopened
  · rw [htext] at h
    cases h
  · rename_i fs' hcreate
    obtain ⟨-, ⟨l, hopened, -⟩ | ⟨hopened, -⟩ | ⟨-, rfl, hnull⟩⟩ := create_cases hcreate
    · cases hopened
    · cases hopened
    · cases h
      exact .inr ⟨rfl, hnull⟩

/-- A path fails by itself, or the system decides where the walk over its names leads. -/
theorem target_cases (purpose : Purpose) (here : Location) (p : Path) :
    (∃ e, ∀ fs, (Place.mk fs here).target purpose p = .failed e) ∨
      ∃ start names, ∀ fs, (Place.mk fs here).target purpose p = walkLinks fs purpose 40 start names := by
  unfold target resolve
  by_cases hlong : pathLimit ≤ p.text.utf8ByteSize
  · simp only [if_pos hlong]
    exact .inl ⟨_, fun _ => rfl⟩
  by_cases hempty : p.text = ""
  · simp only [if_neg hlong, if_pos hempty]
    exact .inl ⟨_, fun _ => rfl⟩
  · simp only [if_neg hlong, if_neg hempty]
    exact .inr ⟨_, _, fun _ => rfl⟩

/-- What a path leads to is found there among more directories. -/
theorem found?_of_addsDirectories {fs : FileSystem} (h : w.fs.AddsDirectories fs) {e : Entry}
    (hfound : w.found? p = some e) : (Place.mk fs w.here).found? p = some e := by
  have hnul : hasNul p = false := by
    rw [← Bool.not_eq_true]
    intro hnul
    simp [found?, find, hnul] at hfound
  rw [found?_eq_target hnul] at hfound ⊢
  split at hfound
  · rename_i l e' htarget
    cases hfound
    have hsame : (Place.mk fs w.here).target .find p = .found l e := by
      obtain ⟨e', hfailed⟩ | ⟨start, names, hwalk⟩ := target_cases .find w.here p
      · rw [hfailed w.fs] at htarget
        cases htarget
      · rw [hwalk]
        exact h.walkLinks _ _ _ ((hwalk w.fs).symm.trans htarget)
    rw [hsame]
  · cases hfound

theorem makeDirectory_adds {fs : FileSystem} (h : w.makeDirectory p = .ok fs) : w.fs.AddsDirectories fs := by
  unfold makeDirectory at h
  split at h
  · cases h
  · split at h
    · cases h
    · cases h
    · rename_i l slash hvacant
      cases h
      refine .set ?_
      obtain ⟨e', hfailed⟩ | ⟨start, names, hwalk⟩ := target_cases .make w.here p
      · rw [hfailed w.fs] at hvacant
        cases hvacant
      · exact lookup_of_walkLinks_vacant _ _ _ ((hwalk w.fs).symm.trans hvacant)

/-- Making directories, whether it fails or not, changes nothing that exists. -/
theorem makeAncestors_adds (here : Location) (ps : List Path) (fs : FileSystem) :
    fs.AddsDirectories (makeAncestors here ps fs).2 := by
  fun_induction makeAncestors here ps fs with
  | case3 p up fs hp fs' hmake => exact makeDirectory_adds hmake
  | case4 p up fs hp e hmake hmissing e' fs' hup ih =>
    rw [hup] at ih
    exact ih
  | case5 p up fs hp e hmake hmissing fs' hup fs'' hagain ih =>
    rw [hup] at ih
    exact ih.trans (makeDirectory_adds hagain)
  | case6 p up fs hp e hmake hmissing fs' hup e' hagain hdirectory ih =>
    rw [hup] at ih
    exact ih
  | case7 p up fs hp e hmake hmissing fs' hup e' hagain hdirectory ih =>
    rw [hup] at ih
    exact ih
  | _ => exact .refl _

theorem makeDirectories_adds (w : Place) (p : Path) : w.fs.AddsDirectories (w.makeDirectories p).2 :=
  makeAncestors_adds w.here p.ancestors w.fs

end Place

end SyntaxView.FileSystem
