import SyntaxView.Proofs.CommandLine.Run

/-!
# Runs that parse one file

A run that parses one file goes through stages: settings, input file, library, parsing, output. The first stage that
fails decides the exit code, and the output is not touched before all others are passed
(`parse_ends_at_first_failure`). Each stage of the command has a lemma that says what it ends with
(`parseCommand_missing`, `parseCommand_noIndex`, `parseCommand_unitFails`, `parseCommand_outputFails`,
`parseCommand_written`).
-/

namespace SyntaxView.CommandLine

open FileSystem (Place)
open Library (Loadable LoadState NoIndex ParserLibrary RawUnit Request exists_index)
open ParsedFile (textOf)

/-! ## What can fail -/

/-- The library does not parse the request. -/
def UnitFails (library : Loadable) (r : Request) : Prop := ∃ l e, library = .ok l ∧ (l.parse r).value = .error e

theorem not_unitFails {library : Loadable} {l : ParserLibrary} {r : Request} {u : ParsedFile} (hl : library = .ok l)
    (h : (l.parse r).value = .ok u) : ¬ UnitFails library r := by
  rintro ⟨l', e, hl', he⟩
  rw [hl] at hl'
  cases hl'
  rw [h] at he
  cases he

instance (r : Request) : (library : Loadable) → Decidable (UnitFails library r)
  | ⟨_, some _⟩ => isFalse nofun
  | ⟨l, none⟩ =>
    match h : (l.parse r).value with
    | .error e => isTrue ⟨l, e, rfl, h⟩
    | .ok _ => isFalse fun ⟨_, _, hl, he⟩ => by cases hl; rw [h] at he; cases he

/-- The request for a file. Without arguments of its own it gets those of the settings. -/
def requestFor (s : Settings) (file : Path) (arguments : List String) : Request :=
  Source.fileRequest file.text (if arguments.isEmpty then s.parsing.defaultArguments else arguments) s.parsing.optionSet

/-! ## Stages of the command -/

/-- A command ends with this exit code, writes nothing to the standard output and leaves all files as they were. -/
structure EndsUntouched (w : Place) (x : Traced Ending) (code : ExitCode) : Prop where
  code_eq : codeOf x.value.1 = code
  fs_eq : x.value.2 = w.fs
  silent : x.Silent

section Answers

variable {w : Place} {output : Option Path} {format : OutputFormat} {limit : Option Nat} {index : Library.Index}
  {state : LoadState} {u : ParsedFile}

theorem showAnswer_noSource {e : ParseError} {code : ExitCode} (h : e.exitCode = code) :
    EndsUntouched w (showAnswer w output format limit (.error e, state)) code :=
  ⟨h, rfl, Traced.silent_pure _⟩

theorem showAnswer_failed {e : ParseError} {code : ExitCode} (h : e.exitCode = code) :
    EndsUntouched w (showAnswer w output format limit (.ok ⟨index, [.error e]⟩, state)) code :=
  ⟨h, rfl, state.silent_release.bind (Traced.silent_pure _)⟩

theorem showAnswer_outputFails (h : OutputFails w output) :
    codeOf (showAnswer w output format limit (.ok ⟨index, [.ok u]⟩, state)).value.1 = .io := by
  obtain ⟨e, fs, hwrite⟩ := writeUnits_error format limit [u] h
  have hpartition : (Source.mk index [.ok u]).partition = ([u], []) := rfl
  simp only [showAnswer, hpartition, Traced.value_bind, hwrite]
  cases e with
  | create => rfl
  | write => rfl

theorem showAnswer_written (h : ¬ OutputFails w output) :
    (showAnswer w output format limit (.ok ⟨index, [.ok u]⟩, state)).value.1 = .ok .success ∧
      Holds w (showAnswer w output format limit (.ok ⟨index, [.ok u]⟩, state)).value.2
        (outText (showAnswer w output format limit (.ok ⟨index, [.ok u]⟩, state)).events) (textOf format limit [u])
        output := by
  obtain ⟨fs, hwrite, hholds⟩ := writeUnits_ok format limit [u] h
  have hpartition : (Source.mk index [.ok u]).partition = ([u], []) := rfl
  have hrelease : outText state.release.events = "" := state.silent_release
  have hlog : outText (logDiagnostics [u]).events = "" := silent_logDiagnostics [u]
  simp only [showAnswer, hpartition, Traced.value_bind, Traced.events_bind, hwrite, outText_append, hrelease, hlog]
  exact ⟨rfl, by simpa using hholds⟩

end Answers

section Stages

variable {w : World} {s : Settings} {file : Path} {format : Option OutputFormat} {maxDepth : Option UInt64}
  {output : Option Path} {noDiagnostics : Bool} {arguments : List String}

theorem parseCommand_missing (h : w.place.doesExist file = false) :
    EndsUntouched w.place (parseCommand w s file format maxDepth output noDiagnostics arguments) .notFound := by
  simp only [parseCommand, h, Bool.false_eq_true, ↓reduceIte]
  exact ⟨rfl, rfl, (silent_complain _).bind (Traced.silent_pure _)⟩

/-- The library's answer to the request of a run that parses one file. -/
def answerFor (w : World) (s : Settings) (noDiagnostics : Bool) (r : Request) : Except ParseError Source × LoadState :=
  (Source.ofRequests w.library (indexMode (parsingOf s noDiagnostics)) [r] .fresh).value

/-- What the command line says of diagnostics does not change the request. -/
theorem request_parsingOf (s : Settings) (noDiagnostics : Bool) (file : Path) (arguments : List String) :
    Source.fileRequest file.text
      (if arguments.isEmpty then (parsingOf s noDiagnostics).defaultArguments else arguments)
      (parsingOf s noDiagnostics).optionSet = requestFor s file arguments := by
  cases noDiagnostics with
  | false => rfl
  | true => rfl

variable (format maxDepth output) in
/-- With an input file, a command ends as the library's answer makes it end: all before is silent. -/
theorem parseCommand_exists (h : w.place.doesExist file = true) {answer : Except ParseError Source × LoadState}
    (hanswer : answerFor w s noDiagnostics (requestFor s file arguments) = answer) :
    (parseCommand w s file format maxDepth output noDiagnostics arguments).value =
        (showAnswer w.place output (format.getD s.output.format) (limitOf maxDepth s) answer).value ∧
      outText (parseCommand w s file format maxDepth output noDiagnostics arguments).events =
        outText (showAnswer w.place output (format.getD s.output.format) (limitOf maxDepth s) answer).events := by
  subst hanswer
  rw [parseCommand, if_pos h]
  simp only [request_parsingOf]
  refine ⟨rfl, ?_⟩
  rw [(Traced.silent_log _ _).outText_bind, (Source.silent_ofRequests _ _ _ _).outText_bind]
  rfl

theorem parseCommand_untouched (h : w.place.doesExist file = true) {answer : Except ParseError Source × LoadState}
    {code : ExitCode} (hanswer : answerFor w s noDiagnostics (requestFor s file arguments) = answer)
    (hends : EndsUntouched w.place
      (showAnswer w.place output (format.getD s.output.format) (limitOf maxDepth s) answer) code) :
    EndsUntouched w.place (parseCommand w s file format maxDepth output noDiagnostics arguments) code := by
  obtain ⟨hvalue, hout⟩ := parseCommand_exists format maxDepth output h hanswer
  refine ⟨?_, ?_, ?_⟩
  · rw [hvalue, hends.code_eq]
  · rw [hvalue, hends.fs_eq]
  · exact hout.trans hends.silent

theorem parseCommand_noIndex (h : w.place.doesExist file = true) (hlibrary : NoIndex w.library) :
    EndsUntouched w.place (parseCommand w s file format maxDepth output noDiagnostics arguments) .general := by
  obtain ⟨e, state, hanswer, hcode⟩ := Source.ofRequests_error hlibrary (indexMode (parsingOf s noDiagnostics))
    [requestFor s file arguments]
  exact parseCommand_untouched h hanswer (showAnswer_noSource hcode)

variable {l : ParserLibrary}

variable (s noDiagnostics) in
theorem answerFor_index (hlibrary : w.library = .ok l) (hindex : l.indexes = true) (r : Request) :
    ∃ state, answerFor w s noDiagnostics r = (.ok ⟨⟨l⟩, [(l.parse r).value]⟩, state) := by
  rw [answerFor, hlibrary]
  exact Source.ofRequests_ok hindex _ [r] .fresh

theorem parseCommand_unitFails (h : w.place.doesExist file = true) (hlibrary : w.library = .ok l)
    (hindex : l.indexes = true) {e : ParseError} (hunit : (l.parse (requestFor s file arguments)).value = .error e) :
    EndsUntouched w.place (parseCommand w s file format maxDepth output noDiagnostics arguments) .parse := by
  obtain ⟨state, hanswer⟩ := answerFor_index s noDiagnostics hlibrary hindex (requestFor s file arguments)
  rw [hunit] at hanswer
  exact parseCommand_untouched h hanswer (showAnswer_failed (l.exitCode_of_parse hunit))

theorem parseCommand_outputFails (h : w.place.doesExist file = true) (hlibrary : w.library = .ok l)
    (hindex : l.indexes = true) {u : ParsedFile} (hunit : (l.parse (requestFor s file arguments)).value = .ok u)
    (houtput : OutputFails w.place output) :
    codeOf (parseCommand w s file format maxDepth output noDiagnostics arguments).value.1 = .io := by
  obtain ⟨state, hanswer⟩ := answerFor_index s noDiagnostics hlibrary hindex (requestFor s file arguments)
  rw [hunit] at hanswer
  rw [(parseCommand_exists format maxDepth output h hanswer).1]
  exact showAnswer_outputFails houtput

theorem parseCommand_written (h : w.place.doesExist file = true) (hlibrary : w.library = .ok l)
    (hindex : l.indexes = true) {u : ParsedFile} (hunit : (l.parse (requestFor s file arguments)).value = .ok u)
    (houtput : ¬ OutputFails w.place output) :
    (parseCommand w s file format maxDepth output noDiagnostics arguments).value.1 = .ok .success ∧
      Holds w.place (parseCommand w s file format maxDepth output noDiagnostics arguments).value.2
        (outText (parseCommand w s file format maxDepth output noDiagnostics arguments).events)
        (textOf (format.getD s.output.format) (limitOf maxDepth s) [u]) output := by
  obtain ⟨state, hanswer⟩ := answerFor_index s noDiagnostics hlibrary hindex (requestFor s file arguments)
  rw [hunit] at hanswer
  obtain ⟨hvalue, hout⟩ := parseCommand_exists format maxDepth output h hanswer
  rw [hvalue, hout]
  exact showAnswer_written houtput

end Stages

/-! ## Runs -/

section Runs

variable {w : World} {words : List String} {i : Invocation} {s : Settings}

theorem run_untouched {code : ExitCode} (h : read words = .run i) (hs : settingsFor w i.config = some s)
    (hends : EndsUntouched w.place (runAction w s i.action) code) :
    (run w words).exit = code.code ∧ (run w words).stdout = "" ∧ (run w words).fs = w.place.fs := by
  obtain ⟨hexit, hout, hfs, -⟩ := run_settings h hs
  exact ⟨by rw [hexit, hends.code_eq], hout.trans hends.silent, by rw [hfs, hends.fs_eq]⟩

variable {config : Option Path} {verbose : Bool} {file : Path} {format : Option OutputFormat}
  {maxDepth : Option UInt64} {output : Option Path} {noDiagnostics : Bool} {arguments : List String}
  {l : ParserLibrary} {u : ParsedFile}

theorem run_outputFails
    (h : read words = .run ⟨config, verbose, .parse file format maxDepth output noDiagnostics arguments⟩)
    (hs : settingsFor w config = some s) (hfile : w.place.doesExist file = true) (hlibrary : w.library = .ok l)
    (hindex : l.indexes = true) (hunit : (l.parse (requestFor s file arguments)).value = .ok u)
    (houtput : OutputFails w.place output) : (run w words).exit = 5 := by
  rw [(run_settings h hs).1, runAction, parseCommand_outputFails hfile hlibrary hindex hunit houtput]
  rfl

theorem run_written
    (h : read words = .run ⟨config, verbose, .parse file format maxDepth output noDiagnostics arguments⟩)
    (hs : settingsFor w config = some s) (hfile : w.place.doesExist file = true) (hlibrary : w.library = .ok l)
    (hindex : l.indexes = true) (hunit : (l.parse (requestFor s file arguments)).value = .ok u)
    (houtput : ¬ OutputFails w.place output) : (run w words).exit = 0 ∧
      Holds w.place (run w words).fs (run w words).stdout
        (textOf (format.getD s.output.format) (limitOf maxDepth s) [u]) output := by
  obtain ⟨hvalue, hholds⟩ := parseCommand_written hfile hlibrary hindex hunit houtput
  obtain ⟨hexit, hout, hfs, -⟩ := run_settings h hs
  rw [hexit, hout, hfs, runAction, hvalue]
  exact ⟨rfl, hholds⟩

end Runs

/-- A run that fails and touches nothing keeps what is promised of it. -/
theorem ends_of_untouched {o : Outcome} {n : Nat} {fs : FileSystem} {P : Prop} (hn : n ≠ 0)
    (h : o.exit = n ∧ o.stdout = "" ∧ o.fs = fs) :
    o.exit = n ∧ (o.exit ∈ [6, 3, 1, 4] → o.stdout = "" ∧ o.fs = fs) ∧ (o.exit = 0 → P) :=
  ⟨h.1, fun _ => h.2, fun h0 => absurd (h.1.symm.trans h0) hn⟩

/-- The exit code of a run that parses one file: the first stage that fails decides it. -/
def firstFailure (w : World) (config : Option Path) (file : Path) (output : Option Path) (arguments : List String) :
    Nat :=
  if ConfigFails w config then 6
  else if w.place.doesExist file = false then 3
  else if NoIndex w.library then 1
  else if UnitFails w.library (requestFor (activeSettings w config) file arguments) then 4
  else if OutputFails w.place output then 5
  else 0

/-- A run that parses one file ends with the code of the first stage that fails. Unless that is the output, nothing is
written and all files stay as they were. If no stage fails, the text of the parsed file is where the output goes. -/
theorem parse_ends_at_first_failure (w : World) {words : List String} {config : Option Path} {verbose : Bool}
    {file : Path} {format : Option OutputFormat} {maxDepth : Option UInt64} {output : Option Path}
    {noDiagnostics : Bool} {arguments : List String}
    (h : read words = .run ⟨config, verbose, .parse file format maxDepth output noDiagnostics arguments⟩) :
    (run w words).exit = firstFailure w config file output arguments ∧
    ((run w words).exit ∈ [6, 3, 1, 4] → (run w words).stdout = "" ∧ (run w words).fs = w.place.fs) ∧
    ((run w words).exit = 0 → ∃ l u, w.library = .ok l ∧
      (l.parse (requestFor (activeSettings w config) file arguments)).value = .ok u ∧
      Holds w.place (run w words).fs (run w words).stdout (textOf (format.getD (activeSettings w config).output.format)
        (limitOf maxDepth (activeSettings w config)) [u]) output) := by
  by_cases hconfig : ConfigFails w config
  · rw [firstFailure, if_pos hconfig]
    exact ends_of_untouched (by decide) (run_noSettings h ((settingsFor_eq_none_iff w config).mpr hconfig))
  have hs := settingsFor_eq_activeSettings hconfig
  rw [firstFailure, if_neg hconfig]
  cases hfile : w.place.doesExist file with
  | false =>
    rw [if_pos rfl]
    exact ends_of_untouched (by decide) (run_untouched h hs (parseCommand_missing hfile))
  | true =>
    rw [if_neg (by decide)]
    by_cases hindex : NoIndex w.library
    · rw [if_pos hindex]
      exact ends_of_untouched (by decide) (run_untouched h hs (parseCommand_noIndex hfile hindex))
    rw [if_neg hindex]
    obtain ⟨l, hlibrary, hl⟩ := exists_index hindex
    cases hunit : (l.parse (requestFor (activeSettings w config) file arguments)).value with
    | error e =>
      rw [if_pos ⟨l, e, hlibrary, hunit⟩]
      exact ends_of_untouched (by decide) (run_untouched h hs (parseCommand_unitFails hfile hlibrary hl hunit))
    | ok u =>
      rw [if_neg (not_unitFails hlibrary hunit)]
      by_cases houtput : OutputFails w.place output
      · rw [if_pos houtput, run_outputFails h hs hfile hlibrary hl hunit houtput]
        exact ⟨rfl, nofun, nofun⟩
      · obtain ⟨hexit, hholds⟩ := run_written h hs hfile hlibrary hl hunit houtput
        rw [if_neg houtput, hexit]
        exact ⟨rfl, nofun, fun _ => ⟨l, u, hlibrary, hunit, hholds⟩⟩

/-! ## A run on an empty file -/

/-- A library that finds nothing in any file. -/
def blankLibrary : ParserLibrary := ⟨true, fun _ => ⟨0, some ⟨[], []⟩⟩⟩

/-- A place with one empty file. -/
def emptyHeader : World := ⟨⟨FileSystem.bare.set ["a.h"] (.file ""), []⟩, [], .ok blankLibrary⟩

/-- The words that ask for the tree of the file. -/
def treeWords (output : String) : List String :=
  ["parse", "a.h", "-f", "tree", "-d", "5", "-o", output, "--", "-DX"]

/-- What these words ask for. -/
def treeInvocation (output : String) : Invocation :=
  ⟨none, false, .parse ⟨"a.h"⟩ (some .tree) (some 5) (some ⟨output⟩) false ["-DX"]⟩

theorem blankLibrary_parse (s : Settings) :
    (blankLibrary.parse (requestFor s ⟨"a.h"⟩ ["-DX"])).value = .ok (RawUnit.toUnit "a.h" ⟨[], []⟩) := by
  -- Options of the settings are no fault of a request.
  have hfault : (requestFor s ⟨"a.h"⟩ ["-DX"]).fault? = Request.fault? ⟨"a.h", ["-DX"], [], ⟨0⟩⟩ := rfl
  rw [ParserLibrary.parse_of_fault?_eq_none _ (hfault.trans (by decide +kernel))]
  rfl

theorem emptyHeader_tree_shown : (run emptyHeader (treeWords "out")).exit = 0 ∧
    (run emptyHeader (treeWords "out")).stdout = "" ∧
    (Place.mk (run emptyHeader (treeWords "out")).fs []).read ⟨"out"⟩ = .ok "a.h\nRoot\n" := by
  have hwords : read (treeWords "out") = .run (treeInvocation "out") := by decide +kernel
  have hconfig : ¬ ConfigFails emptyHeader none := nofun
  have hfile : ¬ emptyHeader.place.doesExist ⟨"a.h"⟩ = false := by decide +kernel
  have hindex : ¬ NoIndex emptyHeader.library := by decide
  have hunit : ¬ UnitFails emptyHeader.library (requestFor (activeSettings emptyHeader none) ⟨"a.h"⟩ ["-DX"]) :=
    not_unitFails rfl (blankLibrary_parse _)
  have houtput : ¬ OutputFails emptyHeader.place (some ⟨"out"⟩) := by decide +kernel
  obtain ⟨hexit, -, hends⟩ := parse_ends_at_first_failure emptyHeader hwords
  rw [firstFailure, if_neg hconfig, if_neg hfile, if_neg hindex, if_neg hunit, if_neg houtput] at hexit
  obtain ⟨l, u, hl, hu, hout, hread⟩ := hends hexit
  cases hl
  rw [blankLibrary_parse] at hu
  cases hu
  rw [if_neg (by decide +kernel)] at hread
  exact ⟨hexit, hout, hread.trans (by decide +kernel)⟩

/-- A run that writes to the null device succeeds, but the device does not hold the text. -/
theorem nullDevice_holds_nothing : read (treeWords "/dev/null") = .run (treeInvocation "/dev/null") ∧
    (run emptyHeader (treeWords "/dev/null")).exit = 0 ∧
    ∃ u, (blankLibrary.parse (requestFor (activeSettings emptyHeader none) ⟨"a.h"⟩ ["-DX"])).value = .ok u ∧
      textOf .tree (some 5) [u] = "a.h\nRoot\n" ∧
      (Place.mk (run emptyHeader (treeWords "/dev/null")).fs []).read ⟨"/dev/null"⟩ = .ok "" := by
  have hwords : read (treeWords "/dev/null") = .run (treeInvocation "/dev/null") := by decide +kernel
  have hs : settingsFor emptyHeader none = some (activeSettings emptyHeader none) := rfl
  obtain ⟨hexit, -, hfs⟩ := run_written hwords hs (by decide +kernel) rfl rfl (blankLibrary_parse _)
    (by decide +kernel)
  rw [if_pos (by decide +kernel)] at hfs
  refine ⟨hwords, hexit, _, blankLibrary_parse _, by decide +kernel, ?_⟩
  rw [hfs]
  decide +kernel

end SyntaxView.CommandLine
