import Mathlib.Data.List.Forall2
import SyntaxView.Database.Basic

/-!
# Loading a database

Loading reads all entries of a text and then converts them in order. `Converts` tells the command that an entry becomes,
`Refused` the error of an entry that becomes none. One of the two holds of every entry (`toCommand_ok_iff`,
`toCommand_error_iff`), and which of them does not depend on the directory of the database. So a list of entries becomes
a list of commands, entry by entry (`toCommands_ok_iff`), or the first entry that is refused gives the error
(`toCommands_error_iff`).

Main result: `loads_all_or_nothing`, for texts and for files.
-/

namespace SyntaxView.Database

/-! ## One entry -/

/-- The words of an entry: its arguments as they stand, whatever its command line is, or without arguments the words of
the command line. -/
def Entry.Says (e : Entry) (words : List String) : Prop :=
  e.arguments = some words ∨ e.arguments = none ∧ ∃ line, e.command = some line ∧ Command.split line = some words

/-- The command that an entry becomes. -/
structure Converts (base : Path) (e : Entry) (c : Command) : Prop where
  words : e.Says c.arguments
  directory : c.directory = if e.directory = "" then base else base.join ⟨e.directory⟩
  file : c.file = c.directory.join ⟨e.file⟩
  output : c.output = e.output

/-- Why an entry becomes no command; the error names its file as written. -/
inductive Refused : Entry → DatabaseError → Prop
  | missing {e : Entry} : e.arguments = none → e.command = none → Refused e (.missingArguments e.file)
  | unterminated {e : Entry} {line : String} : e.arguments = none → e.command = some line →
      Command.split line = none → Refused e (.unterminatedQuote e.file)

theorem words_ok_iff {e : Entry} {words : List String} : e.words = .ok words ↔ e.Says words := by
  unfold Entry.words Entry.Says
  cases e.arguments with
  | some given => simp
  | none =>
    cases e.command with
    | none => simp
    | some line => cases h : Command.split line <;> simp [h]

theorem words_error_iff {e : Entry} {err : DatabaseError} : e.words = .error err ↔ Refused e err := by
  constructor
  · intro h
    unfold Entry.words at h
    split at h
    · cases h
    · rename_i line harguments hcommand
      split at h
      · cases h
      · rename_i hsplit
        cases h
        exact .unterminated harguments hcommand hsplit
    · rename_i harguments hcommand
      cases h
      exact .missing harguments hcommand
  · intro h
    cases h with
    | missing harguments hcommand => simp [Entry.words, harguments, hcommand]
    | unterminated harguments hcommand hsplit => simp [Entry.words, harguments, hcommand, hsplit]

theorem toCommand_ok_iff {base : Path} {e : Entry} {c : Command} : e.toCommand base = .ok c ↔ Converts base e c := by
  constructor
  · intro h
    rw [Entry.toCommand] at h
    cases hwords : e.words with
    | error err =>
      rw [hwords] at h
      cases h
    | ok words =>
      rw [hwords] at h
      cases h
      exact ⟨words_ok_iff.1 hwords, rfl, rfl, rfl⟩
  · rintro ⟨hwords, hdirectory, hfile, houtput⟩
    obtain ⟨directory, file, arguments, output⟩ := c
    simp only at hwords hdirectory hfile houtput
    subst hfile houtput hdirectory
    rw [Entry.toCommand, words_ok_iff.2 hwords]
    rfl

theorem toCommand_error_iff (base : Path) {e : Entry} {err : DatabaseError} :
    e.toCommand base = .error err ↔ Refused e err := by
  rw [← words_error_iff, Entry.toCommand]
  cases e.words <;> simp [Except.map]

/-- An entry and the directory of the database determine the command. -/
theorem Converts.unique {base : Path} {e : Entry} {c c' : Command} (h : Converts base e c) (h' : Converts base e c') :
    c = c' := by
  have heq : Except.ok (ε := DatabaseError) c = .ok c' := (toCommand_ok_iff.2 h).symm.trans (toCommand_ok_iff.2 h')
  exact Except.ok.inj heq

/-- An entry that says words becomes a command from every directory. -/
theorem exists_converts_iff (base : Path) (e : Entry) : (∃ c, Converts base e c) ↔ ∃ words, e.Says words := by
  constructor
  · rintro ⟨c, h⟩
    exact ⟨c.arguments, h.words⟩
  · rintro ⟨words, h⟩
    exact ⟨_, toCommand_ok_iff.1 (by rw [Entry.toCommand, words_ok_iff.2 h]; rfl)⟩

/-! ## All entries -/

variable {base : Path} {entries : List Entry}

theorem toCommands_ok_iff {commands : List Command} :
    toCommands base entries = .ok commands ↔ List.Forall₂ (Converts base) entries commands := by
  induction entries generalizing commands with
  | nil => cases commands <;> simp [toCommands]
  | cons e rest ih =>
    rw [toCommands]
    cases he : e.toCommand base with
    | error err =>
      have hnone : ∀ c, ¬ Converts base e c := by
        intro c hc
        rw [toCommand_ok_iff.2 hc] at he
        cases he
      cases commands <;> simp [hnone]
    | ok c =>
      have hc : Converts base e c := toCommand_ok_iff.1 he
      cases hrest : toCommands base rest with
      | error err => cases commands <;> simp [← ih, hrest, Except.map]
      | ok cs =>
        cases commands with
        | nil => simp [Except.map]
        | cons c' cs' =>
          simp only [Except.map, Except.ok.injEq, List.cons.injEq, List.forall₂_cons, ← ih, hrest]
          exact and_congr_left' ⟨fun h => h ▸ hc, fun h => hc.unique h⟩

/-- The first of the entries that becomes no command gives this error. -/
def FirstRefused (entries : List Entry) (err : DatabaseError) : Prop :=
  ∃ before e after, entries = before ++ e :: after ∧ (∀ b ∈ before, ∃ words, b.Says words) ∧ Refused e err

theorem firstRefused_cons {e : Entry} {rest : List Entry} {err : DatabaseError} :
    FirstRefused (e :: rest) err ↔ Refused e err ∨ (∃ words, e.Says words) ∧ FirstRefused rest err := by
  constructor
  · rintro ⟨before, bad, after, hsplit, hbefore, hbad⟩
    cases before with
    | nil =>
      cases hsplit
      exact .inl hbad
    | cons b before =>
      cases hsplit
      rw [List.forall_mem_cons] at hbefore
      exact .inr ⟨hbefore.1, before, bad, after, rfl, hbefore.2, hbad⟩
  · rintro (h | ⟨hwords, before, bad, after, rfl, hbefore, hbad⟩)
    · exact ⟨[], e, rest, rfl, by simp, h⟩
    · exact ⟨e :: before, bad, after, rfl, List.forall_mem_cons.2 ⟨hwords, hbefore⟩, hbad⟩

theorem toCommands_error_iff {err : DatabaseError} :
    toCommands base entries = .error err ↔ FirstRefused entries err := by
  induction entries with
  | nil => simp [toCommands, FirstRefused]
  | cons e rest ih =>
    rw [toCommands, firstRefused_cons, ← toCommand_error_iff base, ← exists_converts_iff base, ← ih]
    simp only [← toCommand_ok_iff]
    cases e.toCommand base with
    | error err' => simp
    | ok c => cases toCommands base rest <;> simp [Except.map]

theorem exists_forall₂_converts_iff :
    (∃ commands, List.Forall₂ (Converts base) entries commands) ↔ ∀ e ∈ entries, ∃ words, e.Says words := by
  induction entries with
  | nil => simp
  | cons e rest ih =>
    rw [List.forall_mem_cons, ← ih, ← exists_converts_iff base]
    constructor
    · rintro ⟨commands, h⟩
      cases h with
      | cons hc hrest => exact ⟨⟨_, hc⟩, _, hrest⟩
    · rintro ⟨⟨c, hc⟩, cs, hcs⟩
      exact ⟨c :: cs, .cons hc hcs⟩

/-! ## Texts and files -/

/-- **A database is loaded whole or not at all**: if a text reads as a list of entries, loading it succeeds exactly if
all entries say their words, and gives the command of each entry in order, which nothing but the entry and the directory
of the database determines; otherwise it gives the error of the first entry that becomes no command. A text that does
not read as a list of entries is malformed, and the error names the place it came from. A file is loaded as its text is,
from the directory above it. -/
theorem loads_all_or_nothing (text : String) (base : Path) :
    (∀ entries, readEntries text = .ok entries →
      ((∃ commands, ofText text base = .ok commands) ↔ ∀ e ∈ entries, ∃ words, e.Says words) ∧
      (∀ commands, ofText text base = .ok commands ↔ List.Forall₂ (Converts base) entries commands) ∧
      ∀ err, ofText text base = .error err ↔ FirstRefused entries err) ∧
    (∀ e c c', Converts base e c → Converts base e c' → c = c') ∧
    (∀ fault, readEntries text = .error fault → ofText text base = .error (.malformed ⟨""⟩ fault)) ∧
    ∀ (w : FileSystem.Place) (path : Path), w.read path = .ok text →
      (∀ entries, readEntries text = .ok entries → ofFile w path = ofText text (path.parent.getD ⟨"."⟩)) ∧
      ∀ fault, readEntries text = .error fault → ofFile w path = .error (.malformed path fault) := by
  refine ⟨?_, fun e c c' => Converts.unique, ?_, ?_⟩
  · intro entries hread
    have htext : ofText text base = toCommands base entries := by rw [ofText, ofTextAt, hread]
    rw [htext]
    refine ⟨?_, fun commands => toCommands_ok_iff, fun err => toCommands_error_iff⟩
    simp only [toCommands_ok_iff]
    exact exists_forall₂_converts_iff
  · intro fault hread
    rw [ofText, ofTextAt, hread]
  · intro w path hfile
    constructor
    · intro entries hread
      simp only [ofFile, hfile, ofText, ofTextAt, hread]
    · intro fault hread
      simp only [ofFile, hfile, ofTextAt, hread]

/-- Three entries: arguments beside a command line with an open quote, such a line alone, and no words at all. -/
def mixedText : String :=
  "[\x7b\"file\":\"a\",\"arguments\":[],\"command\":\"'\"\x7d," ++
  "\x7b\"file\":\"b\",\"command\":\"'\"\x7d,\x7b\"file\":\"c\"\x7d]"

theorem mixedText_reports_second : ofText mixedText ⟨"/p"⟩ = .error (.unterminatedQuote "b") := by
  have hread : readEntries mixedText =
      .ok [⟨"", "a", some [], some "'", none⟩, ⟨"", "b", none, some "'", none⟩, ⟨"", "c", none, none, none⟩] := by
    decide +kernel
  obtain ⟨-, -, herror⟩ := (loads_all_or_nothing mixedText ⟨"/p"⟩).1 _ hread
  refine (herror _).2 ⟨[_], _, [_], rfl, ?_, .unterminated rfl rfl (by decide +kernel)⟩
  intro b hb
  rw [List.mem_singleton] at hb
  subst hb
  exact ⟨[], .inl rfl⟩

end SyntaxView.Database
