import SyntaxView.Proofs.Command.SourceName
import SyntaxView.Proofs.CurrentDirectory

/-!
# How the path of a database is spelled

A database in the current directory can be given by its bare name or with `./` before it. Both lead to the same text
(`read_bare`), but the directory of the database is the empty path in one case and `.` in the other (`parent_bare`). An
entry is seen from there, so the commands differ where the empty path is not `.`:

- The empty path leads nowhere. So an entry without a directory is not pinned to one under the bare name, while it is
  pinned to the current directory under the other.
- A directory that is given leads to the same place from both (`canonical_dotted`), and what is below it is the same
  (`below?_dotted`). Only a word that names the source from the directory of the database, and not from that of the
  command, is known for the source under one of the two names alone.

Main result: `ofFile_bare_and_dotted`.
-/

namespace SyntaxView

/-! ## Paths with a dot before them -/

namespace Path

variable {p q d : Path}

theorem split_of_plain (hp : p.isAbsolute = false) (h : (cut p.text.toList).head? ≠ some ['.']) :
    p.split = (.plain, cut p.text.toList) := by
  unfold split
  split
  · rename_i cs hcs
    simp [isAbsolute, hcs] at hp
  · split
    · rename_i hcut
      rw [hcut] at h
      exact absurd rfl h
    · rfl

theorem split_of_here (hp : p.isAbsolute = false) {rest : List (List Char)} (h : cut p.text.toList = ['.'] :: rest) :
    p.split = (.here, rest) := by
  unfold split
  split
  · rename_i cs hcs
    simp [isAbsolute, hcs] at hp
  · rw [h]
    rfl

theorem split_dotted (hp : p.isAbsolute = false) : p.dotted.split = (.here, cut p.text.toList) :=
  split_of_here (isAbsolute_dotted hp) (cut_dotted hp)

/-- Pieces after the start name neither the root nor the start. -/
theorem component_mem_names {cs : List Char} {x : Component} (hx : x ∈ names cs) : x ≠ .root ∧ x ≠ .here := by
  obtain ⟨piece, -, hpiece⟩ := List.mem_filterMap.1 hx
  unfold component? at hpiece
  split at hpiece
  · cases hpiece
  · split at hpiece
    · cases hpiece
      exact ⟨nofun, nofun⟩
    · cases hpiece
      exact ⟨nofun, nofun⟩

theorem components_dotted (hp : p.isAbsolute = false) : p.dotted.components = .here :: names p.text.toList :=
  components_join (by decide) hp

theorem components_of_isAbsolute (hp : p.isAbsolute = true) : p.components = .root :: names p.text.toList := by
  have hroot : startOf p.text.toList = .root := by
    rw [startOf, if_pos]
    simpa [isAbsolute] using hp
  rw [components_eq, hroot]
  rfl

theorem root_not_mem_components (hp : p.isAbsolute = false) : .root ∉ p.components := by
  rw [components_eq, List.mem_append, not_or]
  refine ⟨?_, fun h => (component_mem_names h).1 rfl⟩
  have hhead : ¬ p.text.toList.head? = some '/' := by simpa [isAbsolute] using hp
  rw [startOf, if_neg hhead]
  split <;> simp [Start.components]

/-- A path from a relative directory on never has the components of an absolute one. -/
theorem components_join_ne (hd : d.isAbsolute = false) (hne : d.text ≠ "") (hq : q.isAbsolute = false)
    (hp : p.isAbsolute = true) : (d.join q).components ≠ p.components := by
  rw [components_join hne hq, components_of_isAbsolute hp]
  obtain ⟨x, rest, hx⟩ := List.exists_cons_of_ne_nil (components_ne_nil hne)
  have hroot := root_not_mem_components hd
  rw [hx] at hroot ⊢
  intro h
  exact hroot ((List.cons.inj h).1 ▸ List.mem_cons_self)

/-- From whichever relative directory they are seen, two paths name the same or not. -/
theorem components_join_eq_iff (hd : d.isAbsolute = false) (hne : d.text ≠ "") :
    (d.join p).components = (d.join q).components ↔
      p.isAbsolute = q.isAbsolute ∧ names p.text.toList = names q.text.toList := by
  cases hp : p.isAbsolute with
  | true =>
    rw [join_of_isAbsolute d hp]
    cases hq : q.isAbsolute with
    | true =>
      rw [join_of_isAbsolute d hq, components_of_isAbsolute hp, components_of_isAbsolute hq]
      simp
    | false => simp [(components_join_ne hd hne hq hp).symm]
  | false =>
    cases hq : q.isAbsolute with
    | true => simp [join_of_isAbsolute d hq, components_join_ne hd hne hp hq]
    | false => simp [components_join hne hp, components_join hne hq]

theorem isAbsolute_join_relative (hd : d.isAbsolute = false) (hne : d.text ≠ "") (hq : q.isAbsolute = false) :
    (d.join q).isAbsolute = false := by
  cases h : (d.join q).isAbsolute with
  | false => rfl
  | true => exact absurd rfl (components_join_ne hd hne hq h)

theorem join_dotted (hd : d.isAbsolute = false) (hne : d.text ≠ "") (hq : q.isAbsolute = false) :
    d.dotted.join q = (d.join q).dotted := by
  have hlast : ("./" ++ d.text).toList.getLast? = d.text.toList.getLast? := by
    rw [String.toList_append, List.getLast?_append_of_ne_nil _ (mt String.toList_eq_nil_iff.1 hne)]
  rw [dotted_eq (isAbsolute_join_relative hd hne hq), dotted_eq hd, join, join, if_neg (by simp [hq]),
    if_neg (by simp [hq]), hlast]
  cases h : d.text.toList.getLast? with
  | none => exact absurd (String.toList_eq_nil_iff.1 (List.getLast?_eq_none_iff.1 h)) hne
  | some c => by_cases hc : c = '/' <;> simp [hc, String.append_assoc]

/-! ## What is below a directory -/

theorem piecesAfter_idle {piece : List Char} (h : isIdle piece = true) (n : Nat) (ps : List (List Char)) :
    piecesAfter n (piece :: ps) = piecesAfter n ps := by
  cases n with
  | zero => rw [piecesAfter, piecesAfter, dropNames, dropNames, List.dropWhile_cons_of_pos h]
  | succ n => rw [piecesAfter, piecesAfter, dropNames, if_pos h]

/-- The dot that a relative path may start with is not seen among its pieces. -/
theorem split_relative (hp : p.isAbsolute = false) : p.split.1 = startOf p.text.toList ∧
    ∀ n, piecesAfter n p.split.2 = piecesAfter n (cut p.text.toList) := by
  have hhead : ¬ p.text.toList.head? = some '/' := by simpa [isAbsolute] using hp
  rw [startOf, if_neg hhead]
  by_cases hdot : (cut p.text.toList).head? = some ['.']
  · obtain ⟨rest, hrest⟩ := List.head?_eq_some_iff.1 hdot
    rw [split_of_here hp hrest, if_pos hdot, hrest]
    exact ⟨rfl, fun n => (piecesAfter_idle rfl n rest).symm⟩
  · rw [split_of_plain hp hdot, if_neg hdot]
    exact ⟨rfl, fun n => rfl⟩

theorem startOf_join (hne : d.text ≠ "") (hq : q.isAbsolute = false) :
    startOf (d.join q).text.toList = startOf d.text.toList := by
  obtain ⟨a, hjoin, ⟨ha, hne⟩ | ha⟩ := toList_join hne hq
  · rw [hjoin, ha, startOf_append hne]
  · rw [hjoin, ha, startOf_append_nil]

/-- What is joined to a directory is the same below it with a dot before both. -/
theorem below?_dotted (hd : d.isAbsolute = false) (hne : d.text ≠ "") (hq : q.isAbsolute = false) :
    (d.dotted.join q).below? d.dotted = (d.join q).below? d := by
  have hp := isAbsolute_join_relative hd hne hq
  have hne' : d.dotted.text ≠ "" := by simp [dotted_eq hd]
  have hstart : d.components <+: (d.join q).components := by
    rw [components_join hne hq]
    exact List.prefix_append _ _
  have hstart' : d.dotted.components <+: (d.dotted.join q).components := by
    rw [components_join hne' hq]
    exact List.prefix_append _ _
  obtain ⟨hstartOf, hpieces⟩ := split_relative hp
  -- Beyond the start, which is the dot in one path and may be nothing in the other, both have the same names.
  have hcount : d.dotted.components.length - Start.here.components.length =
      d.components.length - (d.join q).split.1.components.length := by
    rw [hstartOf, startOf_join hne hq, components_dotted hd, components_eq d, List.length_append,
      Nat.add_sub_cancel_left]
    rfl
  rw [below?_eq (components_ne_nil hne') hstart', below?_eq (components_ne_nil hne) hstart, join_dotted hd hne hq,
    split_dotted hp, hcount, hpieces]

/-- Nothing absolute is below a relative directory. -/
theorem below?_of_isAbsolute (hd : d.isAbsolute = false) (hne : d.text ≠ "") (hp : p.isAbsolute = true) :
    p.below? d = none := by
  rw [← Option.isNone_iff_eq_none, ← Option.isSome_eq_false_iff, ← Bool.not_eq_true, below?_isSome]
  rintro ⟨more, hmore⟩
  obtain ⟨x, rest, hx⟩ := List.exists_cons_of_ne_nil (components_ne_nil hne)
  have hroot := root_not_mem_components hd
  rw [components_of_isAbsolute hp, hx, List.cons_append] at hmore
  rw [hx, (List.cons.inj hmore).1] at hroot
  exact hroot List.mem_cons_self

/-! ## The directory of a bare name -/

theorem isAbsolute_bare {name : String} (hslash : '/' ∉ name.toList) : (Path.mk name).isAbsolute = false := by
  rw [isAbsolute, beq_eq_false_iff_ne]
  exact fun h => hslash (List.mem_of_head? h)

theorem parent_bare {name : String} (hslash : '/' ∉ name.toList) (hidle : isIdle name.toList = false) :
    (Path.mk name).parent = some ⟨""⟩ ∧ (Path.mk name).dotted.parent = some ⟨"."⟩ := by
  have hcut : cut name.toList = [name.toList] := cut_of_not_mem hslash
  have hdrop : dropIdleEnd [name.toList] = [name.toList] := by simp [dropIdleEnd, hidle]
  have habsolute := isAbsolute_bare hslash
  have hplain : (cut name.toList).head? ≠ some ['.'] := by
    rw [hcut]
    intro h
    rw [Option.some.inj h] at hidle
    cases hidle
  constructor
  · rw [parent, split_of_plain habsolute hplain, hcut]
    simp only [hdrop]
    rfl
  · rw [parent, split_dotted habsolute, hcut]
    simp only [hdrop]
    rfl

end Path

/-! ## Reading -/

namespace FileSystem.Place

variable {w : Place} {name : String}

theorem resolve_bare (hslash : '/' ∉ name.toList) (hne : name ≠ "") (w : Place) :
    w.resolve .find ⟨name⟩ = walkLinks w.fs .find 40 w.here [name] := by
  rw [resolve, if_neg hne, Path.isAbsolute_bare hslash, Path.cut_of_not_mem hslash]
  simp

/-- A name that is near the greatest length of a path is too long for a name. -/
theorem target_bare (hslash : '/' ∉ name.toList) (hne : name ≠ "") (w : Place) :
    w.target .find (Path.mk name).dotted = w.target .find ⟨name⟩ := by
  have hsize : (Path.mk name).dotted.text.utf8ByteSize = 2 + name.utf8ByteSize := by
    rw [Path.dotted_eq (Path.isAbsolute_bare hslash), String.utf8ByteSize_append]
    rfl
  rw [target, target, hsize, resolve_dotted w .find (Path.isAbsolute_bare hslash) hne]
  by_cases hlong : pathLimit ≤ 2 + name.utf8ByteSize
  · rw [if_pos hlong]
    by_cases hlong' : pathLimit ≤ name.utf8ByteSize
    · rw [if_pos hlong']
    · have hname : nameLimit < name.utf8ByteSize := by
        have : nameLimit + 2 < pathLimit := by decide
        omega
      have hidle : ¬ isIdleName name = true := by
        rw [isIdleName, Bool.or_eq_true, beq_iff_eq, beq_iff_eq]
        rintro (rfl | rfl)
        · exact hne rfl
        · exact absurd hname (by decide)
      have hup : name ≠ ".." := by
        rintro rfl
        exact absurd hname (by decide)
      rw [if_neg hlong', resolve_bare hslash hne, walkLinks, walk, if_neg hidle, if_neg hup, if_neg (by simp),
        if_pos hname]
  · rw [if_neg hlong, if_neg (show ¬ pathLimit ≤ name.utf8ByteSize by omega)]

theorem read_bare (hslash : '/' ∉ name.toList) (hne : name ≠ "") (w : Place) :
    w.read (Path.mk name).dotted = w.read ⟨name⟩ := by
  have hfind : w.find (Path.mk name).dotted = w.find ⟨name⟩ := by
    rw [find, find, hasNul_dotted (Path.isAbsolute_bare hslash), target_bare hslash hne]
  rw [read, read, hfind]

/-- The current directory is not a file. -/
theorem not_idle_of_read {text : String} (h : w.read ⟨name⟩ = .ok text) : isIdleName name = false := by
  rw [← Bool.not_eq_true]
  intro hidle
  have hname : name = "" ∨ name = "." := by simpa [isIdleName] using hidle
  rcases hname with rfl | rfl
  · cases h
  · cases h

end FileSystem.Place

/-! ## Commands -/

open FileSystem (Place)

namespace Command

variable {c c' : Command}

/-- Words that are for the driver in one command as in another are dropped alike. -/
theorem dropDriverWords_congr {words : List String} (h : ∀ word ∈ words, c'.isDriverWord word = c.isDriverWord word) :
    c'.dropDriverWords words = c.dropDriverWords words := by
  fun_induction dropDriverWords c words with
  | case1 => rfl
  | case2 a ha => simp [dropDriverWords, h a, ha]
  | case3 a ha => simp [dropDriverWords, h a, ha]
  | case4 b rest ih => simp [dropDriverWords, ih fun word hword => h word (by simp [hword])]
  | case5 a b rest hne ha ih =>
    simp [dropDriverWords, h a, hne, ha, ih fun word hword => h word (List.mem_cons_of_mem a hword)]
  | case6 a b rest hne ha ih =>
    simp [dropDriverWords, h a, hne, ha, ih fun word hword => h word (List.mem_cons_of_mem a hword)]

end Command

namespace Database

/-- The errors are of one kind and have the same cause; they may name the database under different paths. -/
structure SameKind (err err' : DatabaseError) : Prop where
  status : err'.status = err.status
  cause : err'.cause? = err.cause?
  exitCode : err'.exitCode = err.exitCode

/-- The word names the file of a command as it stands. -/
def SpellsFile (c : Command) (word : String) : Prop := (Path.mk word).components = c.file.components

instance (c : Command) (word : String) : Decidable (SpellsFile c word) := inferInstanceAs (Decidable (_ = _))

/-- What the commands `c` and `c'` that an entry becomes from the empty path and from `.` have in common. -/
structure Alike (w : Place) (e : Entry) (c c' : Command) : Prop where
  words : c'.arguments = c.arguments
  output : c'.output = c.output
  /-- An entry with an absolute directory becomes the same command. -/
  rooted : (Path.mk e.directory).isAbsolute = true → c' = c
  /-- A directory that is given leads to the same place. -/
  directory : e.directory ≠ "" → w.canonical c'.directory = w.canonical c.directory
  /-- If it leads to one, the source file has the same name. -/
  name : e.directory ≠ "" → ∀ d, w.canonical c.directory = .ok d → c'.sourceName w = c.sourceName w
  /-- The arguments are the same, unless a word spells the file of only one of the commands. -/
  arguments : e.directory ≠ "" → (∀ word ∈ c.arguments.tail, SpellsFile c word ↔ SpellsFile c' word) →
    c'.parserArguments w = c.parserArguments w
  /-- Without a directory only the second command is pinned. -/
  unpinned : e.directory = "" →
    w.canonical c.directory = .error (.os .notFound) ∧ w.canonical c'.directory = .ok (Place.locationPath w.here)

section Entries

variable {w : Place} {e : Entry} {c c' : Command}

theorem directory_given (hc : Converts ⟨""⟩ e c) (hne : e.directory ≠ "") : c.directory = ⟨e.directory⟩ := by
  rw [hc.directory, if_neg hne, Path.join]
  split
  · rfl
  · rfl

theorem directory_dotted (hc : Converts ⟨"."⟩ e c) (hne : e.directory ≠ "") :
    c.directory = (Path.mk e.directory).dotted := by
  rw [hc.directory, if_neg hne, Path.dotted]

/-- An entry with an absolute directory is the same from everywhere. -/
theorem converts_rooted {base base' : Path} (hc : Converts base e c) (hc' : Converts base' e c')
    (h : (Path.mk e.directory).isAbsolute = true) : c' = c := by
  have hne : e.directory ≠ "" := Path.ne_empty_of_isAbsolute h
  have hsame : Converts base e c' := by
    refine ⟨hc'.words, ?_, hc'.file, hc'.output⟩
    rw [hc'.directory, if_neg hne, if_neg hne, Path.join_of_isAbsolute base h, Path.join_of_isAbsolute base' h]
  exact hsame.unique hc

/-- A relative file is seen from a directory with a dot before it as from the directory itself. -/
theorem below?_getD_dotted {d : Path} (hd : d.isAbsolute = false) (hne : d.text ≠ "") (file root : Path) :
    root.join (((d.dotted.join file).below? d.dotted).getD (d.dotted.join file)) =
      root.join (((d.join file).below? d).getD (d.join file)) := by
  have hne' : d.dotted.text ≠ "" := by simp [Path.dotted_eq hd]
  cases hfile : file.isAbsolute with
  | true =>
    rw [Path.join_of_isAbsolute d hfile, Path.join_of_isAbsolute d.dotted hfile, Path.below?_of_isAbsolute hd hne hfile,
      Path.below?_of_isAbsolute (Path.isAbsolute_dotted hd) hne' hfile]
  | false =>
    obtain ⟨rest, hrest, -⟩ := Path.below?_join hne hfile
    rw [Path.below?_dotted hd hne hfile, hrest, Option.getD_some, Option.getD_some]

theorem says_unique {words words' : List String} (h : e.Says words) (h' : e.Says words') : words' = words := by
  have hok := words_ok_iff.2 h
  rw [words_ok_iff.2 h'] at hok
  exact Except.ok.inj hok

/-- Seen from its directory, a word names the source in both commands or in neither. -/
theorem isSource_dotted (hc : Converts ⟨""⟩ e c) (hc' : Converts ⟨"."⟩ e c') (hne : e.directory ≠ "")
    (hd : (Path.mk e.directory).isAbsolute = false) {word : String} (hword : SpellsFile c word ↔ SpellsFile c' word) :
    c'.isSource word = c.isSource word := by
  have hne' : (Path.mk e.directory).dotted.text ≠ "" := by simp [Path.dotted_eq hd]
  have hseen : ((c'.directory.join ⟨word⟩).components = c'.file.components) ↔
      (c.directory.join ⟨word⟩).components = c.file.components := by
    rw [hc.file, hc'.file, directory_given hc hne, directory_dotted hc' hne,
      Path.components_join_eq_iff (Path.isAbsolute_dotted hd) hne', Path.components_join_eq_iff hd hne]
  rw [Bool.eq_iff_iff]
  simp only [Command.isSource, Path.same, Bool.or_eq_true, beq_iff_eq]
  exact or_congr hword.symm hseen

/-- What an entry becomes from the empty path and from `.`. -/
theorem alike_of_converts (w : Place) (hc : Converts ⟨""⟩ e c) (hc' : Converts ⟨"."⟩ e c') : Alike w e c c' := by
  have hwords : c'.arguments = c.arguments := says_unique hc.words hc'.words
  have houtput : c'.output = c.output := hc'.output.trans hc.output.symm
  cases hd : (Path.mk e.directory).isAbsolute with
  | true =>
    have hsame := converts_rooted hc hc' hd
    subst hsame
    exact ⟨rfl, rfl, fun _ => rfl, fun _ => rfl, fun _ _ _ => rfl, fun _ _ => rfl,
      fun h => absurd h (Path.ne_empty_of_isAbsolute hd)⟩
  | false =>
    have hcanonical : e.directory ≠ "" → w.canonical c'.directory = w.canonical c.directory := by
      intro hne
      rw [directory_given hc hne, directory_dotted hc' hne, Place.canonical_dotted w hd hne]
    refine ⟨hwords, houtput, fun h => by simp [hd] at h, hcanonical, fun hne d hok => ?_, fun hne hspells => ?_,
      fun hempty => ?_⟩
    · rw [Command.sourceName, Command.sourceName, hcanonical hne, hok, hc.file, hc'.file, directory_given hc hne,
        directory_dotted hc' hne]
      exact congrArg Path.text (below?_getD_dotted hd hne ⟨e.file⟩ d)
    · have hdriver : ∀ word ∈ c.arguments.tail, c'.isDriverWord word = c.isDriverWord word := by
        intro word hword
        rw [Command.isDriverWord, Command.isDriverWord, isSource_dotted hc hc' hne hd (hspells word hword)]
      rw [Command.parserArguments, Command.parserArguments, hwords, Command.dropDriverWords_congr hdriver,
        hcanonical hne]
    · rw [hc.directory, hc'.directory, if_pos hempty, if_pos hempty]
      exact ⟨rfl, rfl⟩

end Entries

/-! ## Files -/

section Files

variable {w : Place} {name : String}

theorem SameKind.refl (err : DatabaseError) : SameKind err err := ⟨rfl, rfl, rfl⟩

/-- A database that is read in the current directory has the empty path or `.` for its directory. -/
theorem ofFile_of_read (hslash : '/' ∉ name.toList) (hne : name ≠ "") {text : String}
    (hread : w.read ⟨name⟩ = .ok text) :
    ofFile w ⟨name⟩ = ofTextAt ⟨name⟩ text ⟨""⟩ ∧
      ofFile w (Path.mk name).dotted = ofTextAt (Path.mk name).dotted text ⟨"."⟩ := by
  have hidle : Path.isIdle name.toList = false := Place.isIdle_toList ⟨Place.not_idle_of_read hread, hslash⟩
  obtain ⟨hparent, hparent'⟩ := Path.parent_bare hslash hidle
  simp only [ofFile, Place.read_bare hslash hne, hread, hparent, hparent', Option.getD_some, and_self]

theorem forall₂_pairs {α β γ : Type} {R : α → β → Prop} {S : α → γ → Prop} {l : List α} {bs : List β} {cs : List γ}
    (h : List.Forall₂ R l bs) (h' : List.Forall₂ S l cs) : List.Forall₂ (fun b c => ∃ a, R a b ∧ S a c) bs cs := by
  induction h generalizing cs with
  | nil =>
    cases h'
    exact .nil
  | cons hr _ ih =>
    cases h' with
    | cons hs hrest => exact .cons ⟨_, hr, hs⟩ (ih hrest)

/-- From two directories entries become commands in pairs, or the same entry is refused. -/
theorem toCommands_pairs (base base' : Path) (entries : List Entry) :
    (∃ err, toCommands base entries = .error err ∧ toCommands base' entries = .error err) ∨
      ∃ commands commands', toCommands base entries = .ok commands ∧ toCommands base' entries = .ok commands' ∧
        List.Forall₂ (fun c c' => ∃ e, Converts base e c ∧ Converts base' e c') commands commands' := by
  cases hcommands : toCommands base entries with
  | error err => exact .inl ⟨err, rfl, toCommands_error_iff.2 (toCommands_error_iff.1 hcommands)⟩
  | ok commands =>
    have hconverts := toCommands_ok_iff.1 hcommands
    obtain ⟨commands', hconverts'⟩ :=
      exists_forall₂_converts_iff.2 (exists_forall₂_converts_iff.1 ⟨commands, hconverts⟩)
    exact .inr ⟨commands, commands', rfl, toCommands_ok_iff.2 hconverts', forall₂_pairs hconverts hconverts'⟩

/-- A database in the current directory that is given by its bare name, and one that is given with `./` before it, fail
to load for the same reason, or they have commands for the same entries. A command with a directory is pinned alike, its
source has the same name if the directory exists, and its arguments are the same but for words that spell the file of
one command only. A command without a directory is pinned only in the second case. -/
theorem ofFile_bare_and_dotted (w : Place) {name : String} (hne : name ≠ "") (hslash : '/' ∉ name.toList) :
    (∀ err, ofFile w ⟨name⟩ = .error err → ∃ err', ofFile w ⟨"./" ++ name⟩ = .error err' ∧ SameKind err err') ∧
    ∀ commands, ofFile w ⟨name⟩ = .ok commands → ∃ commands', ofFile w ⟨"./" ++ name⟩ = .ok commands' ∧
      List.Forall₂ (fun c c' => ∃ e, Converts ⟨""⟩ e c ∧ Converts ⟨"."⟩ e c' ∧ Alike w e c c') commands commands' := by
  rw [show Path.mk ("./" ++ name) = (Path.mk name).dotted from (Path.dotted_eq (Path.isAbsolute_bare hslash)).symm]
  cases hread : w.read ⟨name⟩ with
  | error cause =>
    simp only [ofFile, Place.read_bare hslash hne, hread]
    refine ⟨fun err herr => ⟨_, rfl, ?_⟩, fun commands h => by cases h⟩
    cases herr
    exact ⟨rfl, rfl, rfl⟩
  | ok text =>
    obtain ⟨hbare, hdotted⟩ := ofFile_of_read hslash hne hread
    rw [hbare, hdotted, ofTextAt, ofTextAt]
    cases readEntries text with
    | error fault =>
      refine ⟨fun err herr => ⟨_, rfl, ?_⟩, fun commands h => by cases h⟩
      cases herr
      exact ⟨rfl, rfl, rfl⟩
    | ok entries =>
      dsimp only
      obtain ⟨err, herr, herr'⟩ | ⟨commands, commands', hok, hok', hpairs⟩ := toCommands_pairs ⟨""⟩ ⟨"."⟩ entries
      · rw [herr, herr']
        refine ⟨fun err' h => ⟨err, rfl, ?_⟩, fun commands h => by cases h⟩
        cases h
        exact .refl err
      · rw [hok, hok']
        refine ⟨fun err h => absurd h (by simp), fun given hgiven => ⟨commands', rfl, ?_⟩⟩
        cases hgiven
        refine hpairs.imp fun c c' hpair => ?_
        obtain ⟨e, hc, hc'⟩ := hpair
        exact ⟨e, hc, hc', alike_of_converts w hc hc'⟩

/-- A directory `p` with a database in it and a directory `build`. -/
def spelledPlace (text : String) : Place :=
  ⟨((FileSystem.bare.set ["p"] .directory).set ["p", "build"] .directory).set ["p", "db.json"] (.file text), ["p"]⟩

/-- What a parser library is given for each command of a database. -/
def inputsOf (w : Place) (path : Path) : Except DatabaseError (List (List String × String)) :=
  (ofFile w path).map fun commands => commands.map fun c => (c.parserArguments w, c.sourceName w)

def buildText : String :=
  "[\x7b\"directory\":\"build\",\"file\":\"a.c\",\"arguments\":[\"cc\",\"-c\",\"./a.c\",\"-Wall\"]\x7d]"

theorem buildText_alike : ∃ c c', ofFile (spelledPlace buildText) ⟨"db.json"⟩ = .ok [c] ∧
    ofFile (spelledPlace buildText) ⟨"./db.json"⟩ = .ok [c'] ∧
    c.parserArguments (spelledPlace buildText) = ["-Wall", "-working-directory=/p/build"] ∧
    c'.parserArguments (spelledPlace buildText) = c.parserArguments (spelledPlace buildText) ∧
    c'.sourceName (spelledPlace buildText) = c.sourceName (spelledPlace buildText) := by
  have hload : ofFile (spelledPlace buildText) ⟨"db.json"⟩ =
      .ok [⟨⟨"build"⟩, ⟨"build/a.c"⟩, ["cc", "-c", "./a.c", "-Wall"], none⟩] := by decide +kernel
  have hload' : ofFile (spelledPlace buildText) ⟨"./db.json"⟩ =
      .ok [⟨⟨"./build"⟩, ⟨"./build/a.c"⟩, ["cc", "-c", "./a.c", "-Wall"], none⟩] := by decide +kernel
  have hname : "db.json" ≠ "" := by decide
  obtain ⟨commands', hok, hpairs⟩ := (ofFile_bare_and_dotted (spelledPlace buildText) hname (by decide)).2 _ hload
  cases hload'.symm.trans hok
  obtain ⟨e, hc, -, halike⟩ := (List.forall₂_cons.1 hpairs).1
  have hne : e.directory ≠ "" := by
    intro hempty
    have hdirectory := hc.directory
    rw [if_pos hempty] at hdirectory
    exact absurd hdirectory (by decide)
  exact ⟨_, _, hload, hload', by decide +kernel, halike.arguments hne (by decide +kernel),
    halike.name hne ⟨"/p/build"⟩ (by decide +kernel)⟩

def bareText : String := "[\x7b\"file\":\"a.c\",\"arguments\":[\"cc\",\"./a.c\",\"-Wall\"]\x7d]"

/-- Without a directory in the entry, the bare name neither pins the directory nor knows the source. -/
theorem bareText_unpinned :
    inputsOf (spelledPlace bareText) ⟨"db.json"⟩ = .ok [(["./a.c", "-Wall"], "a.c")] ∧
      inputsOf (spelledPlace bareText) ⟨"./db.json"⟩ = .ok [(["-Wall", "-working-directory=/p"], "/p/a.c")] := by
  decide +kernel

end Files

end Database

end SyntaxView
