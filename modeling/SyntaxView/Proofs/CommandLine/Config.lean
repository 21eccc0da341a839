import SyntaxView.Proofs.CommandLine.Run
import SyntaxView.Proofs.Settings.Check

/-!
# Settings that are shown as the standard ones

The command `config` writes the settings of the run, and notices before that the standard ones are shown. Whether it
does is decided by the check of the workspace alone, and what it shows by the settings of the run (`run_config`). From
the text that is shown the settings can be told (`toToml_injective`). So the notice is true exactly if the settings are
the standard ones. Settings come from a file that the command line names, from variables, or from the workspace. Only
without the first two, and with a settings file in which no value is wrapped or read in two ways, a workspace that does
not pass the check has the standard settings (`load_of_check_error`).

Main result: `config_notice_true_iff`.
-/

namespace SyntaxView

open FileSystem (Place)
open FileSystem.Place (IsName)

namespace Settings

/-! ## The text of settings -/

theorem fitsIn_second (s : Settings) : s.FitsIn .second := by
  have hholds {n : Nat} (h : n < 0x10000000000000000) : Toml.Edition.second.holds n = true := by
    have hleast : Toml.Edition.second.least ≤ (n : Int) := show -0x80000000000000000000000000000000 ≤ (n : Int) by omega
    have hmost : (n : Int) ≤ Toml.Edition.second.most := show (n : Int) ≤ 0xffffffffffffffffffffffffffffffff by omega
    rw [Toml.Edition.holds, decide_eq_true hleast, decide_eq_true hmost]
    rfl
  exact ⟨hholds (Nat.lt_trans s.version.toNat_lt (by decide)), fun d _ => hholds d.toNat_lt⟩

/-- Settings can be told from their text. -/
theorem toToml_injective : Function.Injective toToml := by
  have hread (s : Settings) : ofDocument s.toToml = .ok s := by
    rw [ofDocument, parse_toToml (by decide) s.fitsIn_second]
    exact ofData_saved .document s
  intro s s' h
  have hsame := hread s
  rw [h, hread s'] at hsame
  exact (Except.ok.inj hsame).symm

/-! ## Workspaces that do not pass the check -/

/-- The settings file, if there is one, has no value that is wrapped or that the editions of TOML read in two ways. -/
def HasPlainFile (w : Place) : Prop :=
  ∀ file text, workspaceFile? w = some file → w.read file = .ok text →
    Toml.parse .first text = Toml.parse .second text ∧ (Toml.parse .second text).all isPlainDocument = true

/-- A workspace that does not pass the check has the standard settings, or none that load. -/
theorem load_of_check_error {w : Place} (hw : ∀ n ∈ w.here, IsName n) (hplain : HasPlainFile w) {env : Environment}
    (henv : env.paths = []) {fault : SetupFault} (hcheck : check w = .error fault) :
    (load w env).toOption.getD standard = standard := by
  cases hnearest : nearest? w with
  | none => rw [load_eq hw, hnearest, Option.bind_none, ofText_none_alone henv]; rfl
  | some d =>
    cases hread : w.read (settingsFileIn d) with
    | error cause =>
      have htext : textAt w (settingsFileIn d) = none := by rw [textAt, hread]; rfl
      rw [load_eq hw, hnearest, Option.bind_some, htext, ofText_none_alone henv]
      rfl
    | ok text =>
      have hfile : workspaceFile? w = some (settingsFileIn d) := by
        rw [workspaceFile?_eq hw, hnearest, Option.map_some]
      obtain ⟨halike, hplain⟩ := hplain _ _ hfile hread
      rw [check_of_read hfile hread] at hcheck
      rw [load_of_read hw henv hnearest hread, ofLoadedText_eq halike hplain]
      cases hdocument : ofDocument text with
      | error e => rfl
      | ok s =>
        rw [hdocument] at hcheck
        cases hcheck

end Settings

namespace CommandLine

/-! ## The notice -/

/-- The line that says that the standard settings are shown. -/
def defaultsNotice : Event := .err "Showing default configuration.\n"

theorem notice_not_mem_complain {line : String} {c : Char} (h : line.toList.head? = some c) (hc : c ≠ 'S') :
    defaultsNotice ∉ (complain line).events := by
  intro hmem
  obtain ⟨rest, hrest⟩ : ∃ rest, line.toList = c :: rest := List.head?_eq_some_iff.1 h
  have htext : "Showing default configuration.\n" = line ++ "\n" := by
    simpa [defaultsNotice, complain, Traced.emit] using hmem
  -- The first character tells the lines apart.
  have hlist := congrArg (fun t => t.toList.head?) htext
  rw [String.toList_append, hrest] at hlist
  exact hc (Option.some.inj hlist).symm

theorem notice_not_mem_settingsOf (w : World) (config : Option Path) :
    defaultsNotice ∉ (settingsOf w config).events := by
  unfold settingsOf
  split
  · split
    · exact nofun
    · rw [Traced.events_bind, Traced.events_pure, List.append_nil]
      exact @notice_not_mem_complain _ 'C' (by simp [toString]) (by decide)
  · split
    · exact nofun
    · rw [Traced.events_bind, Traced.events_pure, List.append_nil]
      exact @notice_not_mem_complain _ 'C' (by simp [toString]) (by decide)

/-- The notice is shown by the check alone. -/
theorem configCommand_notice_iff (w : World) (s : Settings) :
    defaultsNotice ∈ (configCommand w s).events ↔ ∃ fault, Settings.check w.place = .error fault := by
  unfold configCommand
  cases hcheck : Settings.check w.place with
  | ok u => simp [out, Traced.emit, defaultsNotice]
  | error fault => simp [complain, Traced.emit, defaultsNotice]

theorem configCommand_value (w : World) (s : Settings) : (configCommand w s).value = (.ok .success, w.place.fs) := by
  unfold configCommand
  cases Settings.check w.place with
  | ok u => rfl
  | error fault => rfl

theorem outText_configCommand (w : World) (s : Settings) :
    outText (configCommand w s).events = s.toToml ++ "\n" := by
  unfold configCommand
  cases hcheck : Settings.check w.place with
  | ok u => simp [out, Traced.emit, outText, Event.outText]
  | error fault => simp [complain, out, Traced.emit, outText, Event.outText]

/-! ## Runs of the command -/

section Runs

variable {w : World} {words : List String} {i : Invocation}

theorem run_config_fails (hread : read words = .run i) (hfails : ConfigFails w i.config) :
    (run w words).stdout = "" ∧ defaultsNotice ∉ (run w words).events := by
  have hs : settingsFor w i.config = none := (settingsFor_eq_none_iff w i.config).2 hfails
  refine ⟨(run_noSettings hread hs).2.1, ?_⟩
  rw [run_events hread, hs, List.append_nil]
  exact notice_not_mem_settingsOf w i.config

/-- The settings of the run are shown, and the notice is there exactly if the workspace does not pass the check. -/
theorem run_config (hread : read words = .run i) (haction : i.action = .config) (hconfig : ¬ ConfigFails w i.config) :
    (run w words).stdout = (activeSettings w i.config).toToml ++ "\n" ∧
      (defaultsNotice ∈ (run w words).events ↔ ∃ fault, Settings.check w.place = .error fault) := by
  have hs := settingsFor_eq_activeSettings hconfig
  obtain ⟨-, hstdout, -⟩ := run_settings hread hs
  rw [haction, runAction, outText_configCommand] at hstdout
  refine ⟨hstdout, ?_⟩
  have hreport : (reportEnd (configCommand w (activeSettings w i.config)).value.1).events = [] := by
    rw [configCommand_value]
    rfl
  rw [run_events hread, hs, haction]
  simp only [runAction, List.mem_append, notice_not_mem_settingsOf, false_or, hreport, List.not_mem_nil, or_false,
    configCommand_notice_iff]

/-- The settings of the run are shown, if they load, and the notice depends on the check alone. So it is true exactly if
the run has the standard settings. It has if neither the command line nor variables give any, and if the settings file
has no value that is wrapped or read in two ways. -/
theorem config_notice_true_iff (hw : ∀ n ∈ w.place.here, IsName n) (hread : read words = .run i)
    (haction : i.action = .config) :
    (ConfigFails w i.config → (run w words).stdout = "" ∧ defaultsNotice ∉ (run w words).events) ∧
    (¬ ConfigFails w i.config →
      (run w words).stdout = (activeSettings w i.config).toToml ++ "\n" ∧
      (defaultsNotice ∈ (run w words).events ↔ ∃ fault, Settings.check w.place = .error fault) ∧
      ((run w words).stdout = Settings.standard.toToml ++ "\n" ↔ activeSettings w i.config = Settings.standard)) ∧
    (i.config = none → w.environment.paths = [] → Settings.HasPlainFile w.place →
      defaultsNotice ∈ (run w words).events → (run w words).stdout = Settings.standard.toToml ++ "\n") := by
  refine ⟨run_config_fails hread, fun hconfig => ?_, fun hnone henv hplain hnotice => ?_⟩
  · obtain ⟨hstdout, hnotice⟩ := run_config hread haction hconfig
    refine ⟨hstdout, hnotice, ?_⟩
    rw [hstdout, String.append_left_inj, Settings.toToml_injective.eq_iff]
  · have hconfig : ¬ ConfigFails w i.config := by
      rintro ⟨path, -, hpath, -⟩
      rw [hnone] at hpath
      cases hpath
    obtain ⟨hstdout, hiff⟩ := run_config hread haction hconfig
    obtain ⟨fault, hcheck⟩ := hiff.1 hnotice
    have hsettings : activeSettings w i.config = Settings.standard := by
      rw [hnone, activeSettings, settingsFor, Option.getD_some, Settings.load_of_check_error hw hplain henv hcheck]
    rw [hstdout, hsettings]

/-- A place with variables for settings, and without a parser library. -/
def placeWorld (w : Place) (env : Settings.Environment) : World := ⟨w, env, .error "none"⟩

/-- Where the settings file is corrupted, the standard settings are shown with the notice. -/
theorem corrupted_shows_standard :
    defaultsNotice ∈ (run (placeWorld (Settings.settingsWorld "[") []) ["config"]).events ∧
      (run (placeWorld (Settings.settingsWorld "[") []) ["config"]).stdout = Settings.standard.toToml ++ "\n" := by
  have hread : read ["config"] = .run ⟨none, false, .config⟩ := by decide +kernel
  have hfile : Settings.workspaceFile? (Settings.settingsWorld "[") = some ⟨"/.clangview/settings.toml"⟩ := by
    decide +kernel
  have htext : (Settings.settingsWorld "[").read ⟨"/.clangview/settings.toml"⟩ = .ok "[" := by decide +kernel
  have hplain : Settings.HasPlainFile (Settings.settingsWorld "[") := by
    intro file text hfile' htext'
    cases hfile.symm.trans hfile'
    cases htext.symm.trans htext'
    have hfirst : (Toml.parse .first "[").isNone = true := by decide +kernel
    have hsecond : (Toml.parse .second "[").isNone = true := by decide +kernel
    rw [Option.isNone_iff_eq_none] at hfirst hsecond
    rw [hfirst, hsecond]
    exact ⟨rfl, rfl⟩
  have hcheck : Settings.check (Settings.settingsWorld "[") = .error (.corrupted .notToml) := by decide +kernel
  have hnames : ∀ n ∈ (placeWorld (Settings.settingsWorld "[") []).place.here, IsName n := nofun
  obtain ⟨-, hshown, htrue⟩ := config_notice_true_iff hnames hread rfl
  obtain ⟨-, hnotice, -⟩ := hshown nofun
  exact ⟨hnotice.2 ⟨_, hcheck⟩, htrue rfl rfl hplain (hnotice.2 ⟨_, hcheck⟩)⟩

/-- A settings file that lies in no settings directory. -/
def customPlace : Place := ⟨FileSystem.bare.set ["custom.toml"] (.file "debug = true\n"), []⟩

/-- The notice is shown, but other settings than the standard ones. -/
def NoticeMisleads (o : Outcome) : Prop :=
  defaultsNotice ∈ o.events ∧ o.stdout ≠ Settings.standard.toToml ++ "\n"

theorem noticeMisleads_of_settings (hread : read words = .run i) (haction : i.action = .config) {s : Settings}
    (hs : settingsFor w i.config = some s) (hne : s ≠ Settings.standard) {fault : Settings.SetupFault}
    (hcheck : Settings.check w.place = .error fault) : NoticeMisleads (run w words) := by
  have hconfig : ¬ ConfigFails w i.config := by
    rw [← settingsFor_eq_none_iff, hs]
    nofun
  obtain ⟨hstdout, hnotice⟩ := run_config hread haction hconfig
  refine ⟨hnotice.2 ⟨fault, hcheck⟩, ?_⟩
  rw [hstdout, activeSettings, hs, Option.getD_some, Ne, String.append_left_inj, Settings.toToml_injective.eq_iff]
  exact hne

/-- The notice misleads with a file that the command line names, with a variable, and with a wrapped value in the
settings file. -/
theorem notice_misleads :
    NoticeMisleads (run (placeWorld customPlace []) ["config", "-c", "custom.toml"]) ∧
    NoticeMisleads (run (placeWorld customPlace [("CV_DEBUG", "true")]) ["config"]) ∧
    NoticeMisleads (run (placeWorld (Settings.settingsWorld Settings.wrappedDocument) []) ["config"]) := by
  have hread : read ["config"] = .run ⟨none, false, .config⟩ := by decide +kernel
  have hreadCustom : read ["config", "-c", "custom.toml"] = .run ⟨some ⟨"custom.toml"⟩, false, .config⟩ := by
    decide +kernel
  have hne : { Settings.standard with debug := true } ≠ Settings.standard := by decide
  have hmissing : Settings.check customPlace = .error .missing := by decide +kernel
  have hwrapped : Settings.check (Settings.settingsWorld Settings.wrappedDocument) =
      .error (.corrupted (.invalidType ["debug"])) := by decide +kernel
  exact ⟨noticeMisleads_of_settings hreadCustom rfl (by decide +kernel) hne hmissing,
    noticeMisleads_of_settings hread rfl (by decide +kernel) hne hmissing,
    noticeMisleads_of_settings hread rfl (by decide +kernel) hne hwrapped⟩

end Runs

end CommandLine
end SyntaxView
