import SyntaxView.Proofs.CommandLine.Output

/-!
# Runs of a well-formed command line

A run has settings unless the command line names a settings file that does not load (`settingsFor`). Without settings it
ends at once (`run_noSettings`). With settings, exit code, file system and standard output are those of its command
(`run_settings`): what comes before and after the command is written to the standard error output.
-/

namespace SyntaxView.CommandLine

/-! ## Standard error output -/

theorem silent_complain (line : String) : (complain line).Silent := rfl

theorem silent_logDiagnostics (units : List ParsedFile) : (logDiagnostics units).Silent := by
  refine Traced.silent_each (fun u => ?_) units
  refine (Traced.silent_each (fun d => Traced.silent_log _ _) u.diagnostics).bind ?_
  split
  · exact Traced.silent_log _ _
  · exact Traced.silent_pure _

theorem silent_reportErrors (errors : List ParseError) : (reportErrors errors).Silent :=
  Traced.silent_each
    (fun _ => (Traced.silent_log _ _).bind (Traced.silent_each (fun _ => silent_complain _) _)) errors

/-- What an event writes to the standard error output stands there among the rest. -/
theorem stderr_of_mem {o : Outcome} {text : String} (h : .err text ∈ o.events) :
    ∃ before after, o.stderr = before ++ text ++ after := by
  obtain ⟨es, fs, hevents⟩ := List.append_of_mem h
  unfold Outcome.stderr
  rw [hevents, List.map_append, List.map_cons, String.join_append, String.join_cons, ← String.append_assoc]
  exact ⟨_, _, rfl⟩

/-! ## Settings -/

/-- The settings of a run. The file that the command line names must load; without one, the standard settings stand in
for those of the workspace if these do not load. -/
def settingsFor (w : World) : Option Path → Option Settings
  | some path => (Settings.loadFrom w.place w.environment path).toOption
  | none => some ((Settings.load w.place w.environment).toOption.getD Settings.standard)

/-- The command line names a settings file that does not load. -/
def ConfigFails (w : World) (config : Option Path) : Prop :=
  ∃ path e, config = some path ∧ Settings.loadFrom w.place w.environment path = .error e

theorem settingsFor_eq_none_iff (w : World) (config : Option Path) :
    settingsFor w config = none ↔ ConfigFails w config := by
  cases config with
  | none => exact ⟨nofun, nofun⟩
  | some path =>
    rw [settingsFor]
    constructor
    · intro h
      cases hload : Settings.loadFrom w.place w.environment path with
      | error e => exact ⟨path, e, rfl, hload⟩
      | ok s =>
        rw [hload] at h
        cases h
    · rintro ⟨path', e, hpath, hload⟩
      cases hpath
      rw [hload]
      rfl

instance (w : World) (config : Option Path) : Decidable (ConfigFails w config) :=
  decidable_of_iff _ (settingsFor_eq_none_iff w config)

/-- The settings that a run works with. -/
def activeSettings (w : World) (config : Option Path) : Settings := (settingsFor w config).getD Settings.standard

theorem settingsFor_eq_activeSettings {w : World} {config : Option Path} (h : ¬ ConfigFails w config) :
    settingsFor w config = some (activeSettings w config) := by
  obtain ⟨s, hs⟩ : ∃ s, settingsFor w config = some s :=
    Option.ne_none_iff_exists'.mp (mt (settingsFor_eq_none_iff w config).mp h)
  rw [activeSettings, hs, Option.getD_some]

theorem settingsOf_value (w : World) (config : Option Path) : (settingsOf w config).value = settingsFor w config := by
  unfold settingsOf
  split
  · rw [settingsFor]
    split
    · rename_i h
      rw [h]
      rfl
    · rename_i h
      rw [h]
      rfl
  · rw [settingsFor]
    split
    · rename_i h
      rw [h]
      rfl
    · rename_i h
      rw [h]
      rfl

theorem silent_settingsOf (w : World) (config : Option Path) : (settingsOf w config).Silent := by
  unfold settingsOf
  split
  · split
    · exact Traced.silent_pure _
    · exact (silent_complain _).bind (Traced.silent_pure _)
  · split
    · exact Traced.silent_pure _
    · exact (silent_complain _).bind (Traced.silent_pure _)

/-! ## Runs -/

theorem stdout_eq_outText (o : Outcome) : o.stdout = outText o.events := rfl

theorem silent_reportEnd : ∀ ending : Except Failure ExitCode, (reportEnd ending).Silent
  | .error _ => silent_complain _
  | .ok code => by
    rw [reportEnd]
    split
    · exact Traced.silent_log _ _
    · exact Traced.silent_pure _

variable {w : World} {words : List String} {i : Invocation}

theorem run_of_read (h : read words = .run i) : run w words = runInvocation w i := by
  rw [run, h]

/-- A run without settings ends at once. -/
theorem run_noSettings (h : read words = .run i) (hs : settingsFor w i.config = none) :
    (run w words).exit = ExitCode.config.code ∧ (run w words).stdout = "" ∧ (run w words).fs = w.place.fs := by
  have hvalue := settingsOf_value w i.config
  have hsilent := silent_settingsOf w i.config
  rw [hs] at hvalue
  rw [run_of_read h]
  unfold runInvocation
  cases hsettings : settingsOf w i.config with
  | mk value events =>
    rw [hsettings] at hvalue hsilent
    cases hvalue
    exact ⟨rfl, hsilent, rfl⟩

/-- A run with settings is the run of its command. -/
theorem run_settings {s : Settings} (h : read words = .run i) (hs : settingsFor w i.config = some s) :
    (run w words).exit = (codeOf (runAction w s i.action).value.1).code ∧
    (run w words).stdout = outText (runAction w s i.action).events ∧
    (run w words).fs = (runAction w s i.action).value.2 ∧
    ∀ e ∈ (runAction w s i.action).events, e ∈ (run w words).events := by
  have hvalue := settingsOf_value w i.config
  have hsilent : outText (settingsOf w i.config).events = "" := silent_settingsOf w i.config
  have hreport : outText (reportEnd (runAction w s i.action).value.1).events = "" := silent_reportEnd _
  rw [hs] at hvalue
  rw [stdout_eq_outText, run_of_read h]
  unfold runInvocation
  cases hsettings : settingsOf w i.config with
  | mk value events =>
    rw [hsettings] at hvalue hsilent
    cases hvalue
    refine ⟨rfl, ?_, rfl, fun e he => List.mem_append_left _ (List.mem_append_right _ he)⟩
    change outText (events ++ (runAction w s i.action).events ++ _) = _
    rw [outText_append, outText_append, hsilent, hreport, String.append_empty, String.empty_append]

/-- The events of a run are those of its settings and then, if it has some, those of its command and its report. -/
theorem run_events (h : read words = .run i) :
    (run w words).events = (settingsOf w i.config).events ++
      match settingsFor w i.config with
      | none => []
      | some s => (runAction w s i.action).events ++ (reportEnd (runAction w s i.action).value.1).events := by
  rw [run_of_read h, ← settingsOf_value]
  unfold runInvocation
  split
  · rename_i hsettings
    rw [hsettings, List.append_nil]
  · rename_i hsettings
    rw [hsettings]
    exact List.append_assoc _ _ _

end SyntaxView.CommandLine
