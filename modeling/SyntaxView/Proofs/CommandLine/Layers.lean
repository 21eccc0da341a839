import SyntaxView.Proofs.CommandLine.Database
import SyntaxView.Proofs.CommandLine.Parse
import SyntaxView.Proofs.Settings.Layers

/-!
# The layers under a run

Over the layers of settings lies the command line. It decides format and depth where it gives them, and the arguments
for the compiler where words follow `--` (`arguments_follow_dashes`). Everything else of a run goes by its settings, of
which each leaf can be told by itself (`layers_decide_leaf_by_leaf`). A run that parses one file asks the library for
one request only (`run_asksOnly`).
-/

namespace SyntaxView

open FileSystem (Place)
open Library (LoadState Loadable IndexMode NoIndex ParserLibrary RawUnit Request exists_index)
open ParsedFile (textOf)
open Settings (Environment Leaf LeafWise)

namespace CommandLine

/-! ## Words after `--` -/

/-- What an option gives leaves the words after `--` alone. -/
theorem Given.trailing_value {g g' : Given} {flag : Flag} {v : String} (h : g.value? flag v = some g') :
    g'.trailing = g.trailing := by
  unfold value? at h
  split at h
  case h_5 => cases h
  all_goals
    obtain ⟨a, -, rfl⟩ := Option.map_eq_some_iff.mp h
    rfl

theorem Given.trailing_switch {g g' : Given} {flag : Flag} (h : g.switch? flag = some g') :
    g'.trailing = g.trailing := by
  unfold switch? at h
  split at h
  case h_4 => cases h
  all_goals
    split at h
    · cases h
    · cases h
      rfl

/-- Reading ends without a command line. -/
def Scan.IsEnd : Scan → Prop
  | .wrong | .version | .help => True
  | .done _ | .command .. => False

/-- A step ends the reading, or it goes on with the same words after `--`. -/
def Step.Keeps (g : Given) : Step → Prop
  | .stop result => result.IsEnd
  | .given g' => g'.trailing = g.trailing
  | .pending _ g' => g'.trailing = g.trailing

theorem switchStep_keeps (g : Given) (flag : Flag) : (switchStep g flag).Keeps g := by
  unfold switchStep
  split
  · trivial
  · trivial
  · split
    · rename_i h
      exact Given.trailing_switch h
    · trivial

theorem valueStep_keeps (g : Given) (flag : Flag) (v : List Char) : (valueStep g flag v).Keeps g := by
  unfold valueStep
  split
  · rename_i h
    exact Given.trailing_value h
  · trivial

theorem letters_keeps (flags : List FlagName) (g : Given) (cs : List Char) : (letters flags g cs).Keeps g := by
  fun_induction letters flags g cs with
  | case1 => rfl
  | case2 => trivial
  | case3 => rfl
  | case4 => exact valueStep_keeps _ _ _
  | case5 => exact valueStep_keeps _ _ _
  | case6 g c cs f _ _ g' hstep ih =>
    have hkeeps := switchStep_keeps g f.flag
    rw [hstep] at hkeeps
    cases hletters : letters flags g' cs with
    | stop result =>
      rw [hletters] at ih
      exact ih
    | given g'' | pending _ g'' =>
      rw [hletters] at ih
      exact Eq.trans ih hkeeps
  | case7 => exact switchStep_keeps _ _

theorem longName_keeps (flags : List FlagName) (g : Given) (cs : List Char) : (longName flags g cs).Keeps g := by
  unfold longName
  dsimp only
  split
  · trivial
  split
  · exact valueStep_keeps _ _ _
  · trivial
  · rfl
  · exact switchStep_keeps _ _

/-- A word of options ends the reading, or it goes on with the same words after `--`. -/
theorem optionStep_keeps {flags : List FlagName} {g : Given} {cs : List Char} {step : Step}
    (h : (match cs with
      | '-' :: '-' :: cs => longName flags g cs
      | '-' :: cs => letters flags g cs
      | _ => .stop .wrong) = step) : step.Keeps g := by
  subst h
  split
  · exact longName_keeps _ _ _
  · exact letters_keeps _ _ _
  · trivial

/-- The words after the first `--`. -/
def wordsAfterDashes (words : List String) : List String := (words.dropWhile (· != "--")).tail

theorem wordsAfterDashes_cons {word : String} (h : word ≠ "--") (rest : List String) :
    wordsAfterDashes (word :: rest) = wordsAfterDashes rest := by
  rw [wordsAfterDashes, List.dropWhile_cons_of_pos (by simpa using h)]
  rfl

theorem ne_dashes_of_not_option {word : String} (h : ¬ looksLikeOption word = true) : word ≠ "--" := by
  rintro rfl
  exact h (by decide)

/-- What reading one word can do: end, take the words after `--`, name a command, or go on. -/
theorem scan_cons (grammar : Grammar) (pending : Option Flag) (g : Given) (word : String) (rest : List String) :
    (scan grammar pending g (word :: rest)).IsEnd ∨
    (word = "--" ∧ scan grammar pending g (word :: rest) = addTrailing grammar g rest) ∨
    (word ≠ "--" ∧ word ∈ grammar.commands ∧ scan grammar pending g (word :: rest) = .command word g rest) ∨
    (word ≠ "--" ∧ ∃ pending' g', g'.trailing = g.trailing ∧
      scan grammar pending g (word :: rest) = scan grammar pending' g' rest) := by
  cases pending with
  | some flag =>
    rw [scan]
    split
    · exact .inl trivial
    rename_i hdashes
    split
    · rename_i g' hvalue
      exact .inr (.inr (.inr ⟨ne_dashes_of_not_option hdashes, none, g', Given.trailing_value hvalue, rfl⟩))
    · exact .inl trivial
  | none =>
    rw [scan]
    split
    · rename_i hdashes
      exact .inr (.inl ⟨hdashes, rfl⟩)
    rename_i hdashes
    split
    · split
      · rename_i result hstep
        exact .inl (optionStep_keeps hstep)
      · rename_i g' hstep
        exact .inr (.inr (.inr ⟨hdashes, none, g', optionStep_keeps hstep, rfl⟩))
      · rename_i flag g' hstep
        exact .inr (.inr (.inr ⟨hdashes, some flag, g', optionStep_keeps hstep, rfl⟩))
    split
    · rename_i hcommand
      exact .inr (.inr (.inl ⟨hdashes, List.contains_iff_mem.mp hcommand, rfl⟩))
    split
    · rename_i g' hword
      refine .inr (.inr (.inr ⟨hdashes, none, g', ?_, rfl⟩))
      unfold addWord at hword
      split at hword
      · cases hword
        rfl
      · cases hword
    · exact .inl trivial

/-- Where words after `--` are kept apart, those of the command line are kept. -/
theorem scan_trailing {grammar : Grammar} (hgrammar : grammar.trailing = true) {pending : Option Flag}
    {g g' : Given} {words : List String} (hg : g.trailing = []) (h : scan grammar pending g words = .done g') :
    g'.trailing = wordsAfterDashes words := by
  induction words generalizing pending g with
  | nil =>
    cases pending with
    | none =>
      cases h
      exact hg
    | some flag => cases h
  | cons word rest ih =>
    rcases scan_cons grammar pending g word rest with hend | ⟨rfl, heq⟩ | ⟨-, -, heq⟩ | ⟨hne, pending', g₁, hg₁, heq⟩
    · rw [h] at hend
      exact hend.elim
    · rw [heq, addTrailing, if_pos hgrammar] at h
      cases h
      rfl
    · rw [heq] at h
      cases h
    · rw [wordsAfterDashes_cons hne]
      exact ih (hg₁.trans hg) (heq.symm.trans h)

/-- A command is named before any `--`. -/
theorem scan_command {grammar : Grammar} {pending : Option Flag} {g g' : Given} {words rest : List String}
    {name : String} (h : scan grammar pending g words = .command name g' rest) :
    wordsAfterDashes words = wordsAfterDashes rest := by
  induction words generalizing pending g with
  | nil => cases pending <;> cases h
  | cons word rest' ih =>
    rcases scan_cons grammar pending g word rest' with hend | ⟨rfl, heq⟩ | ⟨hne, -, heq⟩ | ⟨hne, pending', g₁, -, heq⟩
    · rw [h] at hend
      exact hend.elim
    · rw [heq] at h
      unfold addTrailing at h
      dsimp only at h
      split at h
      · cases h
      split at h
      · cases h
      · cases h
    · rw [heq] at h
      cases h
      exact wordsAfterDashes_cons hne rest
    · rw [wordsAfterDashes_cons hne]
      exact ih (heq.symm.trans h)

theorem readHelp_ne_run (words : List String) (i : Invocation) : readHelp words ≠ .run i := by
  unfold readHelp
  split
  · exact nofun
  · split
    · exact nofun
    · exact nofun
  · exact nofun

section ParseWords

variable {words : List String} {config : Option Path} {verbose : Bool} {file : Path} {format : Option OutputFormat}
  {maxDepth : Option UInt64} {output : Option Path} {noDiagnostics : Bool} {arguments : List String}

theorem action?_parse {name : String} {g : Given}
    (h : action? name g = some (.parse file format maxDepth output noDiagnostics arguments)) :
    name = "parse" ∧ arguments = g.trailing := by
  unfold action? at h
  dsimp only at h
  split at h
  case h_1 =>
    obtain ⟨file', -, hfile⟩ := Option.map_eq_some_iff.mp h
    cases hfile
    exact ⟨rfl, rfl⟩
  case h_2 =>
    obtain ⟨file', -, hfile⟩ := Option.map_eq_some_iff.mp h
    cases hfile
  all_goals cases h

theorem readCommand_parse {name : String} {top : Given}
    (h : readCommand name top words = .run ⟨config, verbose, .parse file format maxDepth output noDiagnostics arguments⟩) :
    arguments = wordsAfterDashes words := by
  unfold readCommand at h
  split at h
  · split at h
    · exact absurd h (readHelp_ne_run words _)
    · cases h
  rename_i grammar hgrammar
  split at h
  case h_5 g hscan =>
    split at h
    · rename_i action haction
      cases h
      obtain ⟨rfl, rfl⟩ := action?_parse haction
      cases hgrammar
      exact scan_trailing rfl rfl hscan
    · cases h
  all_goals cases h

/-- The arguments for the compiler are the words after the first `--`. -/
theorem arguments_follow_dashes
    (h : read words = .run ⟨config, verbose, .parse file format maxDepth output noDiagnostics arguments⟩) :
    arguments = wordsAfterDashes words := by
  unfold read at h
  split at h
  case h_5 name top rest hscan => exact (readCommand_parse h).trans (scan_command hscan).symm
  all_goals cases h

end ParseWords

/-! ## Requests -/

end CommandLine

namespace Traced

variable {α β : Type} {r : Request}

/-- The library is asked to parse this request, if any. -/
def AsksOnly (r : Request) (x : Traced α) : Prop := ∀ r', .parse r' ∈ x.events → r' = r

theorem asksOnly_pure (a : α) : (Pure.pure a : Traced α).AsksOnly r := nofun

theorem asksOnly_log (level : Level) (message : String) : (log level message).AsksOnly r := by
  intro r' h
  cases List.mem_singleton.mp h

theorem AsksOnly.bind {x : Traced α} {f : α → Traced β} (hx : x.AsksOnly r) (hf : (f x.value).AsksOnly r) :
    (x >>= f).AsksOnly r := fun r' h => (List.mem_append.mp h).elim (hx r') (hf r')

theorem asksOnly_each {act : α → Traced Unit} (h : ∀ a, (act a).AsksOnly r) : ∀ l : List α, (each act l).AsksOnly r
  | [] => asksOnly_pure ()
  | a :: rest => (h a).bind (f := fun _ => each act rest) (asksOnly_each h rest)

end Traced

namespace Library

variable {r : Request}

theorem LoadState.asksOnly_acquire (library : Loadable) (s : LoadState) : (s.acquire library).AsksOnly r := by
  unfold acquire
  split
  · cases library.refusal with
    | some reason => exact Traced.asksOnly_pure _
    | none => exact (Traced.asksOnly_log _ _).bind (Traced.asksOnly_pure _)
  · exact Traced.asksOnly_pure _

theorem LoadState.asksOnly_release (s : LoadState) : s.release.AsksOnly r := by
  unfold release
  dsimp only
  split
  · exact (Traced.asksOnly_log _ _).bind (Traced.asksOnly_pure _)
  · exact Traced.asksOnly_pure _

theorem asksOnly_createIndex (library : Loadable) (mode : IndexMode) (s : LoadState) :
    (createIndex library mode s).AsksOnly r := by
  unfold createIndex
  refine (s.asksOnly_acquire library).bind ?_
  obtain ⟨result, s'⟩ := (s.acquire library).value
  cases result with
  | error e => exact Traced.asksOnly_pure _
  | ok _ =>
    have hemit : (Traced.emit (.createIndex mode.pch.code mode.diagnostics.code)).AsksOnly r :=
      fun r' h => by cases List.mem_singleton.mp h
    refine hemit.bind ?_
    split
    · exact (Traced.asksOnly_log _ _).bind (Traced.asksOnly_pure _)
    · exact s'.asksOnly_release.bind (Traced.asksOnly_pure _)

theorem ParserLibrary.asksOnly_parse (l : ParserLibrary) (r : Request) : (l.parse r).AsksOnly r := by
  unfold parse
  split
  · exact Traced.asksOnly_pure _
  have hemit : (Traced.emit (.parse r)).AsksOnly r := fun r' h => by
    cases List.mem_singleton.mp h
    rfl
  refine (Traced.asksOnly_log _ _).bind (hemit.bind ?_)
  dsimp only
  split
  · exact (Traced.asksOnly_log _ _).bind (Traced.asksOnly_pure _)
  · exact (Traced.asksOnly_log _ _).bind (Traced.asksOnly_pure _)

end Library

theorem Source.asksOnly_ofRequests (library : Loadable) (mode : IndexMode) (r : Request) (s : LoadState) :
    (ofRequests library mode [r] s).AsksOnly r := by
  have hcreate : (create library mode s).AsksOnly r := by
    unfold create
    refine (Library.asksOnly_createIndex library mode s).bind ?_
    obtain ⟨_ | _, _⟩ := (Library.createIndex library mode s).value
    · exact Traced.asksOnly_pure _
    · exact Traced.asksOnly_pure _
  unfold ofRequests
  refine hcreate.bind ?_
  obtain ⟨_ | source, _⟩ := (create library mode s).value
  · exact Traced.asksOnly_pure _
  · have hparse : (source.parse r).AsksOnly r :=
      (source.index.library.asksOnly_parse r).bind (Traced.asksOnly_pure _)
    exact (hparse.bind (Traced.asksOnly_pure _)).bind (Traced.asksOnly_pure _)

namespace CommandLine

section Requests

variable {r : Request}

theorem asksOnly_complain (line : String) : (complain line).AsksOnly r := by
  intro r' h
  cases List.mem_singleton.mp h

theorem asksOnly_logDiagnostics (units : List ParsedFile) : (logDiagnostics units).AsksOnly r := by
  refine Traced.asksOnly_each (fun u => ?_) units
  refine (Traced.asksOnly_each (fun d => Traced.asksOnly_log _ _) u.diagnostics).bind ?_
  split
  · exact Traced.asksOnly_log _ _
  · exact Traced.asksOnly_pure _

theorem asksOnly_writeUnits (w : Place) (output : Option Path) (format : OutputFormat) (limit : Option Nat)
    (units : List ParsedFile) : (writeUnits w output format limit units).AsksOnly r := by
  cases output with
  | none =>
    intro r' h
    simp [writeUnits, writeOut, out, Traced.emit] at h
  | some path => exact Traced.asksOnly_pure _

theorem asksOnly_showAnswer (w : Place) (output : Option Path) (format : OutputFormat) (limit : Option Nat)
    (answer : Except ParseError Source × LoadState) : (showAnswer w output format limit answer).AsksOnly r := by
  obtain ⟨_ | source, state⟩ := answer
  · exact Traced.asksOnly_pure _
  unfold showAnswer
  refine state.asksOnly_release.bind ?_
  obtain ⟨units, _ | ⟨e, rest⟩⟩ := source.partition
  · refine (asksOnly_writeUnits w output format limit units).bind ?_
    obtain ⟨_ | _, fs⟩ := (writeUnits w output format limit units).value
    · exact Traced.asksOnly_pure _
    · exact (asksOnly_logDiagnostics units).bind (Traced.asksOnly_pure _)
  · exact Traced.asksOnly_pure _

theorem asksOnly_settingsOf (w : World) (config : Option Path) : (settingsOf w config).AsksOnly r := by
  unfold settingsOf
  split
  · split
    · exact Traced.asksOnly_pure _
    · exact (asksOnly_complain _).bind (Traced.asksOnly_pure _)
  · split
    · exact Traced.asksOnly_pure _
    · exact (asksOnly_complain _).bind (Traced.asksOnly_pure _)

theorem asksOnly_reportEnd : ∀ ending : Except Failure ExitCode, (reportEnd ending).AsksOnly r
  | .error _ => asksOnly_complain _
  | .ok code => by
    rw [reportEnd]
    split
    · exact Traced.asksOnly_log _ _
    · exact Traced.asksOnly_pure _

end Requests

section Runs

variable {w : World} {words : List String} {config : Option Path} {verbose : Bool} {file : Path}
  {format : Option OutputFormat} {maxDepth : Option UInt64} {output : Option Path} {noDiagnostics : Bool}
  {arguments : List String} {s : Settings}

theorem parseCommand_asksOnly (w : World) (s : Settings) (file : Path) (format : Option OutputFormat)
    (maxDepth : Option UInt64) (output : Option Path) (noDiagnostics : Bool) (arguments : List String) :
    (parseCommand w s file format maxDepth output noDiagnostics arguments).AsksOnly (requestFor s file arguments) := by
  unfold parseCommand
  split
  · simp only [request_parsingOf]
    exact (Traced.asksOnly_log _ _).bind ((Source.asksOnly_ofRequests _ _ _ _).bind (asksOnly_showAnswer _ _ _ _ _))
  · exact (asksOnly_complain _).bind (Traced.asksOnly_pure _)

/-- A run that parses one file asks the library for the request that its settings and its words make. -/
theorem run_asksOnly
    (h : read words = .run ⟨config, verbose, .parse file format maxDepth output noDiagnostics arguments⟩)
    (hs : settingsFor w config = some s) {r : Request} (hr : .parse r ∈ (run w words).events) :
    r = requestFor s file arguments := by
  rw [run_of_read h, runInvocation] at hr
  have hvalue := (settingsOf_value w config).trans hs
  have hbefore := asksOnly_settingsOf w config (r := requestFor s file arguments)
  cases hsettings : settingsOf w config with
  | mk value events =>
    rw [hsettings] at hvalue hbefore
    cases hvalue
    simp only [hsettings, runAction, List.mem_append] at hr
    rcases hr with (hr | hr) | hr
    · exact hbefore r hr
    · exact parseCommand_asksOnly w s file format maxDepth output noDiagnostics arguments r hr
    · exact asksOnly_reportEnd _ r hr

/-- A run that parses one file and succeeds shows what the library makes of that request. -/
theorem run_success
    (h : read words = .run ⟨config, verbose, .parse file format maxDepth output noDiagnostics arguments⟩)
    (hs : settingsFor w config = some s) (hexit : (run w words).exit = 0) :
    ∃ l u, w.library = .ok l ∧ (l.parse (requestFor s file arguments)).value = .ok u ∧
      Holds w.place (run w words).fs (run w words).stdout
        (textOf (format.getD s.output.format) (limitOf maxDepth s) [u]) output := by
  have huntouched : ∀ {code : ExitCode}, code.code ≠ 0 → ¬ EndsUntouched w.place
      (parseCommand w s file format maxDepth output noDiagnostics arguments) code :=
    fun hcode hends => hcode ((run_untouched h hs hends).1.symm.trans hexit)
  cases hfile : w.place.doesExist file with
  | false => exact absurd (parseCommand_missing hfile) (huntouched (by decide))
  | true =>
    by_cases hindex : NoIndex w.library
    · exact absurd (parseCommand_noIndex hfile hindex) (huntouched (by decide))
    obtain ⟨l, hlibrary, hl⟩ := exists_index hindex
    cases hunit : (l.parse (requestFor s file arguments)).value with
    | error e => exact absurd (parseCommand_unitFails hfile hlibrary hl hunit) (huntouched (by decide))
    | ok u =>
      by_cases houtput : OutputFails w.place output
      · rw [run_outputFails h hs hfile hlibrary hl hunit houtput] at hexit
        cases hexit
      · exact ⟨l, u, hlibrary, hunit, (run_written h hs hfile hlibrary hl hunit houtput).2⟩

end Runs

/-! ## Layers -/

/-- Settings that load are told leaf by leaf: each is the one of the environment, else the one of the file, else the
standard one. A list in the place of a section counts as a whole (`Settings.fileValue?`). A run shows the format and the
depth that its words give, and else those of its settings; it parses a file with the words after `--`, and with the
arguments of its settings exactly if there are none. -/
theorem layers_decide_leaf_by_leaf {env : Environment} (henv : env.NamesLeaves) :
    (∀ (l : Leaf) (name : String), name.toList.map Char.toLower = l.variableName.toList →
      Environment.keyPath? name = some l.path) ∧
    (∀ (w : Place) (p : Path) (s : Settings), Settings.loadFrom w env p = .ok s →
      ∃ file, Settings.fileLayer w p = .ok (.table file) ∧ LeafWise env file s) ∧
    (∀ (w : Place) (s : Settings), Settings.load w env = .ok s →
      ∃ file, Settings.fileLayer w (Settings.workspaceFile w) = .ok (.table file) ∧ LeafWise env file s) ∧
    (∀ (w : World) (words : List String) (config : Option Path) (verbose : Bool) (file : Path)
        (format : Option OutputFormat) (maxDepth : Option UInt64) (output : Option Path) (noDiagnostics : Bool)
        (arguments : List String) (s : Settings),
      read words = .run ⟨config, verbose, .parse file format maxDepth output noDiagnostics arguments⟩ →
      settingsFor w config = some s →
      (∀ r, .parse r ∈ (run w words).events → r.arguments =
        if wordsAfterDashes words = [] then s.parsing.defaultArguments else wordsAfterDashes words) ∧
      ((run w words).exit = 0 → ∃ l u, w.library = .ok l ∧
        (l.parse (requestFor s file (wordsAfterDashes words))).value = .ok u ∧
        Holds w.place (run w words).fs (run w words).stdout (textOf (format.getD s.output.format)
          ((maxDepth <|> s.output.maxDepth).map UInt64.toNat) [u]) output)) ∧
    (∀ (w : World) (words : List String) (config : Option Path) (verbose : Bool) (file : Path)
        (format : Option OutputFormat) (maxDepth : Option UInt64) (s : Settings) (l : ParserLibrary)
        (commands : List Command),
      read words = .run ⟨config, verbose, .database file format maxDepth⟩ → settingsFor w config = some s →
      w.library = .ok l → l.indexes = true → Database.ofFile w.place file = .ok commands →
      ∃ results, Isolated l w.place s.parsing.optionSet commands results ∧
        (run w words).stdout = textOf (format.getD s.output.format)
          ((maxDepth <|> s.output.maxDepth).map UInt64.toNat) (Source.parsed results)) := by
  refine ⟨fun l name => Settings.keyPath?_of_variableName, fun w p s => Settings.loadFrom_leafWise henv,
    fun w s => Settings.loadFrom_leafWise henv, ?_, ?_⟩
  · intro w words config verbose file format maxDepth output noDiagnostics arguments s hread hs
    obtain rfl := arguments_follow_dashes hread
    refine ⟨fun r hr => ?_, run_success hread hs⟩
    rw [run_asksOnly hread hs hr]
    simp only [requestFor, Source.fileRequest, List.isEmpty_iff]
  · intro w words config verbose file format maxDepth s l commands hread hs hlibrary hl hfile
    obtain ⟨-, hshown, -⟩ := databaseCommand_ends hlibrary hl hfile s format maxDepth rfl
    obtain ⟨-, hout, -, -⟩ := run_settings hread hs
    exact ⟨_, (isolated_iff hl).mpr rfl, hout.trans hshown⟩

/-! ## A run over three layers -/

/-- A settings file with some leaves of both sections. -/
def sectionsText : String :=
  "debug = true\n[parsing]\nexclude_pch_declarations = false\n[output]\nformat = \"json\"\nmax_depth = 7\n"

/-- Variables for two leaves, and one that is not for settings. -/
def twoVariables : Environment := [("CV_PARSING__DIAGNOSTICS", "false"), ("cv_output__max_depth", "1"), ("HOME", "/")]

def sectionsWorld : World :=
  ⟨⟨(FileSystem.bare.set ["a.h"] (.file "")).set ["s.toml"] (.file sectionsText), []⟩, twoVariables, .ok blankLibrary⟩

/-- The file sets three leaves that stay and one that a variable sets, too. -/
def sectionsSettings : Settings := ⟨1, true, "warn", ⟨false, false, ["-x", "c++"], []⟩, ⟨.json, some 1⟩⟩

theorem twoVariables_namesLeaves : twoVariables.NamesLeaves := by
  have hpaths : twoVariables.paths = [Leaf.diagnostics.path, Leaf.maxDepth.path] := by decide +kernel
  constructor
  · rw [hpaths]
    simp
  · rw [hpaths]
    decide

/-- The words give a format and no arguments. -/
def sectionsWords : List String := ["parse", "a.h", "-c", "/s.toml", "-f", "tree"]

theorem sectionsWorld_layered :
    (∃ file, Settings.fileLayer sectionsWorld.place ⟨"/s.toml"⟩ = .ok (.table file) ∧
      LeafWise twoVariables file sectionsSettings) ∧
    (run sectionsWorld sectionsWords).exit = 0 ∧ (run sectionsWorld sectionsWords).stdout = "a.h\nRoot\n" ∧
    ∀ r, .parse r ∈ (run sectionsWorld sectionsWords).events → r.arguments = ["-x", "c++"] := by
  have hload : Settings.loadFrom sectionsWorld.place twoVariables ⟨"/s.toml"⟩ = .ok sectionsSettings := by decide +kernel
  have hread : read sectionsWords =
    .run ⟨some ⟨"/s.toml"⟩, false, .parse ⟨"a.h"⟩ (some .tree) none none false []⟩ := by decide +kernel
  have hs : settingsFor sectionsWorld (some ⟨"/s.toml"⟩) = some sectionsSettings := by
    rw [settingsFor]
    exact congrArg Except.toOption hload
  have hfault : (requestFor sectionsSettings ⟨"a.h"⟩ []).fault? = none := by decide +kernel
  have hunit : (blankLibrary.parse (requestFor sectionsSettings ⟨"a.h"⟩ [])).value =
    .ok (RawUnit.toUnit "a.h" ⟨[], []⟩) := blankLibrary.parse_of_fault?_eq_none hfault
  have hexit : (run sectionsWorld sectionsWords).exit = 0 :=
    (run_written hread hs (by decide +kernel) rfl rfl hunit (by simp [OutputFails])).1
  obtain ⟨-, hleaves, -, hruns, -⟩ := layers_decide_leaf_by_leaf twoVariables_namesLeaves
  obtain ⟨harguments, hshown⟩ := hruns _ _ _ _ _ _ _ _ _ _ _ hread hs
  obtain ⟨l, u, hl, hu, hout, -⟩ := hshown hexit
  cases hl
  rw [show wordsAfterDashes sectionsWords = [] by decide, hunit] at hu
  cases hu
  exact ⟨hleaves _ _ _ hload, hexit, hout.trans (by decide +kernel), harguments⟩

/-- A section that is a list in the file: a variable for one of its leaves sets another one back to the standard. -/
theorem list_section_resets :
    let place : Place := ⟨FileSystem.bare.set ["s.toml"] (.file "parsing = [false, false]\n"), []⟩
    Settings.loadFrom place [] ⟨"/s.toml"⟩ =
      .ok { Settings.standard with parsing := ⟨false, false, ["-x", "c++"], []⟩ } ∧
    Environment.paths [("CV_PARSING__DIAGNOSTICS", "true")] = [Leaf.diagnostics.path] ∧
    Settings.loadFrom place [("CV_PARSING__DIAGNOSTICS", "true")] ⟨"/s.toml"⟩ =
      .ok { Settings.standard with parsing := ⟨true, true, ["-x", "c++"], []⟩ } := by
  decide +kernel

end CommandLine

end SyntaxView
