import SyntaxView.Proofs.CommandLine.Run

/-!
# Runs over a compilation database

Each entry of a database is parsed as if it were alone (`Source.Alone`), so no entry hides another, whatever becomes of
it. A run over a database shows the entries that parse, in order, counts all of them, and succeeds exactly if none fails
(`database_entries_isolated`).
-/

namespace SyntaxView.CommandLine

open FileSystem (Place)
open Library (IndexMode LoadState ParserLibrary RawUnit)
open ParsedFile (textOf)
open Source (Alone Splits commandRequest failed fileRequest parsed)

section Command

variable {w : World} {l : ParserLibrary} {file : Path} {commands : List Command}

theorem code_of_errors (errors : List ParseError) :
    (codeOf (.ok (if errors.isEmpty then .success else .parse))).code = if errors = [] then 0 else 4 := by
  cases errors with
  | nil => rfl
  | cons e rest => rfl

/-- A run over a database shows what parses, counts all and changes no file. -/
theorem databaseCommand_ends (hlibrary : w.library = .ok l) (hl : l.indexes = true)
    (hfile : Database.ofFile w.place file = .ok commands) (s : Settings) (format : Option OutputFormat)
    (maxDepth : Option UInt64) {results : List ParseResult}
    (hresults : (commands.map fun c => (l.parse (commandRequest w.place s.parsing.optionSet c)).value) = results) :
    (databaseCommand w s file format maxDepth).value =
        (.ok (if (failed results).isEmpty then .success else .parse), w.place.fs) ∧
      outText (databaseCommand w s file format maxDepth).events =
        textOf (format.getD s.output.format) (limitOf maxDepth s) (parsed results) ∧
      .err (s!"Parsed {(parsed results).length} translation unit(s), {(failed results).length} failed" ++ "\n") ∈
        (databaseCommand w s file format maxDepth).events := by
  obtain ⟨state, hsource⟩ := Source.ofDatabase_ok hl (indexMode s.parsing) w.place commands s.parsing.optionSet .fresh
  rw [hresults] at hsource
  have hsilent : outText (Source.ofDatabase (.ok l) (indexMode s.parsing) w.place commands s.parsing.optionSet
    .fresh).events = "" := Source.silent_ofDatabase _ _ _ _ _ _
  have hlog : ∀ level message, outText (Traced.log level message).events = "" := Traced.silent_log
  have hrelease : outText state.release.events = "" := state.silent_release
  have hdiagnostics : outText (logDiagnostics (parsed results)).events = "" := silent_logDiagnostics _
  have herrors : outText (reportErrors (failed results)).events = "" := silent_reportErrors _
  have hcomplain : ∀ line, outText (complain line).events = "" := silent_complain
  have hpartition : (Source.mk ⟨l⟩ results).partition = (parsed results, failed results) := rfl
  simp only [databaseCommand, hfile, hlibrary, Traced.value_bind, Traced.events_bind, hsource, hpartition,
    outText_append, hlog, hsilent, hrelease, hdiagnostics, herrors, hcomplain, outText_writeOut]
  refine ⟨rfl, by simp, ?_⟩
  simp [complain, Traced.emit]

end Command

/-! ## Entries of a database -/

/-- These are the results of the commands of a database: each is the one that its command has alone. -/
def Isolated (l : ParserLibrary) (w : Place) (options : OptionSet) (commands : List Command)
    (results : List ParseResult) : Prop :=
  List.Forall₂ (fun c result => Alone (.ok l) (fileRequest (c.sourceName w) (c.parserArguments w) options) result)
    commands results

theorem isolated_iff {l : ParserLibrary} (hl : l.indexes = true) {w : Place} {options : OptionSet}
    {commands : List Command} {results : List ParseResult} : Isolated l w options commands results ↔
      commands.map (fun c => (l.parse (commandRequest w options c)).value) = results :=
  Source.forall₂_alone_iff hl (commandRequest w options)

/-- With a library that creates indexes, a source over a database has the result that each entry has alone, in order.
Files parsed later are added after them, and the results split into parsed files and errors. A run over a database, once
it has settings, shows the parsed files, counts all entries, and succeeds exactly if no entry fails. -/
theorem database_entries_isolated {l : ParserLibrary} (hl : l.indexes = true) :
    (∀ (mode : IndexMode) (w : Place) (commands : List Command) (options : OptionSet) (state : LoadState),
      ∃ source state', (Source.ofDatabase (.ok l) mode w commands options state).value = (.ok source, state') ∧
        Isolated l w options commands source.results ∧
        (∀ later, ∃ added, (source.parseAll later).value.results = source.results ++ added ∧
          List.Forall₂ (Alone (.ok l)) later added) ∧
        Splits source.results source.partition.1 source.partition.2) ∧
    (∀ (w : World) (words : List String) (config : Option Path) (verbose : Bool) (file : Path)
        (format : Option OutputFormat) (maxDepth : Option UInt64) (commands : List Command), w.library = .ok l →
      read words = .run ⟨config, verbose, .database file format maxDepth⟩ → ¬ ConfigFails w config →
      Database.ofFile w.place file = .ok commands →
      ∃ results units errors, Isolated l w.place (activeSettings w config).parsing.optionSet commands results ∧
        Splits results units errors ∧
        (run w words).stdout = textOf (format.getD (activeSettings w config).output.format)
          (limitOf maxDepth (activeSettings w config)) units ∧
        (∃ before after, (run w words).stderr = before ++
          (s!"Parsed {units.length} translation unit(s), {errors.length} failed" ++ "\n") ++ after) ∧
        units.length + errors.length = commands.length ∧
        (run w words).exit = (if errors = [] then 0 else 4) ∧
        (run w words).fs = w.place.fs) := by
  constructor
  · intro mode w commands options state
    obtain ⟨state', hsource⟩ := Source.ofDatabase_ok hl mode w commands options state
    refine ⟨_, state', hsource, (isolated_iff hl).mpr rfl, fun later => ?_, Source.splits_results _⟩
    rw [Source.parseAll_value]
    exact ⟨_, rfl, (Source.forall₂_alone_iff hl id).mpr rfl⟩
  · intro w words config verbose file format maxDepth commands hlibrary hread hconfig hfile
    obtain ⟨hvalue, hshown, hcount⟩ :=
      databaseCommand_ends hlibrary hl hfile (activeSettings w config) format maxDepth rfl
    obtain ⟨hexit, hout, hfs, hevents⟩ := run_settings hread (settingsFor_eq_activeSettings hconfig)
    refine ⟨_, _, _, (isolated_iff hl).mpr rfl, Source.splits_results _, hout.trans hshown,
      stderr_of_mem (hevents _ hcount), ?_, ?_, ?_⟩
    · rw [(Source.splits_results _).length_add, List.length_map]
    · rw [hexit, runAction, hvalue, code_of_errors]
    · rw [hfs, runAction, hvalue]

/-! ## A run over two entries -/

def twoEntriesText : String :=
  "[\x7b\"directory\":\"/\",\"file\":\"bad.c\",\"command\":\"cc bad.c\"\x7d," ++
  "\x7b\"directory\":\"/\",\"file\":\"good.c\",\"command\":\"cc good.c\"\x7d]"

def twoEntries : List Command :=
  [⟨⟨"/"⟩, ⟨"/bad.c"⟩, ["cc", "bad.c"], none⟩, ⟨⟨"/"⟩, ⟨"/good.c"⟩, ["cc", "good.c"], none⟩]

/-- A library that parses one file only. -/
def pickyLibrary : ParserLibrary := ⟨true, fun r => if r.fileName = "/good.c" then ⟨0, some ⟨[], []⟩⟩ else ⟨1, none⟩⟩

def twoEntriesWorld : World := ⟨⟨FileSystem.bare.set ["db.json"] (.file twoEntriesText), []⟩, [], .ok pickyLibrary⟩

/-- What this library makes of a file. -/
def answered (fileName : String) : ParseResult :=
  ((pickyLibrary.answer ⟨fileName, [], [], ⟨0⟩⟩).outcome fileName).map (RawUnit.toUnit fileName)

theorem pickyLibrary_parse (options : OptionSet) :
    twoEntries.map (fun c => (pickyLibrary.parse (commandRequest twoEntriesWorld.place options c)).value) =
      [.error (.failure "/bad.c"), .ok (RawUnit.toUnit "/good.c" ⟨[], []⟩)] := by
  have hnames : twoEntries.map (Command.sourceName twoEntriesWorld.place) = ["/bad.c", "/good.c"] := by decide +kernel
  have hfault : ∀ c ∈ twoEntries, (commandRequest twoEntriesWorld.place options c).fault? = none := by
    change ∀ c ∈ twoEntries, (commandRequest twoEntriesWorld.place ⟨0⟩ c).fault? = none
    decide +kernel
  calc twoEntries.map (fun c => (pickyLibrary.parse (commandRequest twoEntriesWorld.place options c)).value)
    _ = twoEntries.map (fun c => answered (c.sourceName twoEntriesWorld.place)) :=
      List.map_congr_left fun c hc => pickyLibrary.parse_of_fault?_eq_none (hfault c hc)
    _ = (twoEntries.map (Command.sourceName twoEntriesWorld.place)).map answered := by rw [List.map_map]; rfl
    _ = _ := by rw [hnames]; rfl

theorem twoEntries_shown_and_counted :
    (run twoEntriesWorld ["db", "db.json", "-f", "tree", "-d", "5"]).exit = 4 ∧
    (run twoEntriesWorld ["db", "db.json", "-f", "tree", "-d", "5"]).stdout = "/good.c\nRoot\n" := by
  have hlibrary : pickyLibrary.indexes = true := rfl
  have hread : read ["db", "db.json", "-f", "tree", "-d", "5"] =
    .run ⟨none, false, .database ⟨"db.json"⟩ (some .tree) (some 5)⟩ := by decide +kernel
  have hfile : Database.ofFile twoEntriesWorld.place ⟨"db.json"⟩ = .ok twoEntries := by decide +kernel
  obtain ⟨results, units, errors, hisolated, hsplits, hout, -, -, hexit, -⟩ :=
    (database_entries_isolated hlibrary).2 twoEntriesWorld _ _ _ _ _ _ _ rfl hread nofun hfile
  rw [isolated_iff hlibrary, pickyLibrary_parse] at hisolated
  subst hisolated
  obtain ⟨rfl, rfl⟩ := hsplits.unique
  exact ⟨hexit, hout.trans (by decide +kernel)⟩

end SyntaxView.CommandLine
