import Mathlib.Data.Fintype.Basic
import SyntaxView.Proofs.Settings.Sections
import SyntaxView.Proofs.Toml.Order
import SyntaxView.Settings.Load

/-!
# Settings of several layers

A single setting is a `Leaf`. Where settings load, each leaf can be told by itself (`loadFrom_leafWise`): it is what the
environment says of it, else what the file says of it, else the standard one. What the variables say together is found
by going through them one after the other (`layer_variables`), each of which adds one leaf (`Variables.add`).

A section of the file may be a list. It says something of the leaves in their order, but only as a whole: once a
variable names a leaf of the section, the list says nothing.
-/

namespace SyntaxView.Settings

open Data (over?)
open Environment (keyPath? value)

/-! ## Leaves -/

/-- A section of settings. -/
inductive Group where
  | parsing
  | output
  deriving DecidableEq

namespace Group

def key : Group → String
  | .parsing => "parsing"
  | .output => "output"

/-- The names of the settings of a section, in the order of a list. -/
def names : Group → List String
  | .parsing => ParsingSettings.names
  | .output => OutputSettings.names

end Group

/-- A single setting. -/
inductive Leaf where
  | version
  | debug
  | logLevel
  | excludePchDeclarations
  | diagnostics
  | defaultArguments
  | options
  | format
  | maxDepth
  deriving DecidableEq

namespace Leaf

instance : Fintype Leaf :=
  ⟨{.version, .debug, .logLevel, .excludePchDeclarations, .diagnostics, .defaultArguments, .options, .format, .maxDepth},
    fun l => by cases l <;> decide⟩

/-- The section of a setting; some are in none. -/
def group? : Leaf → Option Group
  | .version | .debug | .logLevel => none
  | .excludePchDeclarations | .diagnostics | .defaultArguments | .options => some .parsing
  | .format | .maxDepth => some .output

def key : Leaf → String
  | .version => "version"
  | .debug => "debug"
  | .logLevel => "log_level"
  | .excludePchDeclarations => "exclude_pch_declarations"
  | .diagnostics => "diagnostics"
  | .defaultArguments => "default_args"
  | .options => "options"
  | .format => "format"
  | .maxDepth => "max_depth"

/-- The keys that lead to a setting. -/
def path (l : Leaf) : List String := (l.group?.map Group.key).toList ++ [l.key]

def Value : Leaf → Type
  | .version => UInt32
  | .debug => Bool
  | .logLevel => String
  | .excludePchDeclarations => Bool
  | .diagnostics => Bool
  | .defaultArguments => List String
  | .options => List ParseOption
  | .format => OutputFormat
  | .maxDepth => Option UInt64

/-- How a setting is read. -/
def read : (l : Leaf) → Data → Except SettingsError l.Value
  | .version, v => (v.asNat 0x100000000).map UInt32.ofNat
  | .debug, v => v.asBool
  | .logLevel, v => v.asText
  | .excludePchDeclarations, v => v.asBool
  | .diagnostics, v => v.asBool
  | .defaultArguments, v => v.asList Data.asText
  | .options, v => v.asList (Data.asLabelled .layered)
  | .format, v => (v.asLabelled .layered : Except SettingsError OutputFormat)
  | .maxDepth, v => (v.asOptional (Data.asNat 0x10000000000000000)).map fun n => n.map UInt64.ofNat

def get : (l : Leaf) → Settings → l.Value
  | .version, s => s.version
  | .debug, s => s.debug
  | .logLevel, s => s.logLevel
  | .excludePchDeclarations, s => s.parsing.excludePchDeclarations
  | .diagnostics, s => s.parsing.diagnostics
  | .defaultArguments, s => s.parsing.defaultArguments
  | .options, s => s.parsing.options
  | .format, s => s.output.format
  | .maxDepth, s => s.output.maxDepth

end Leaf

/-! ## What the environment and the file say -/

namespace Environment

/-- The paths of keys that variables set. -/
def paths (env : Environment) : List (List String) := env.filterMap fun v => keyPath? v.1

/-- The value of the variable that sets the path of keys. -/
def valueAt? (env : Environment) (path : List String) : Option Data :=
  (env.find? fun v => keyPath? v.1 == some path).map fun v => value v.2

/-- A variable names a leaf of the section. -/
def Touches (env : Environment) (g : Group) : Prop := ∃ l : Leaf, l.group? = some g ∧ (env.valueAt? l.path).isSome = true

instance (env : Environment) (g : Group) : Decidable (env.Touches g) :=
  inferInstanceAs (Decidable (∃ l : Leaf, l.group? = some g ∧ (env.valueAt? l.path).isSome = true))

/-- All variables for settings name leaves, no two the same one. -/
structure NamesLeaves (env : Environment) : Prop where
  leaves : ∀ path ∈ env.paths, ∃ l : Leaf, l.path = path
  once : env.paths.Nodup

end Environment

/-- What a file says of a setting. A section that is a list says something as long as no variable names a leaf of it. -/
def fileValue? (env : Environment) (file : List (String × Data)) (l : Leaf) : Option Data :=
  match l.group? with
  | none => file.lookup l.key
  | some g => (file.lookup g.key).bind (Data.settingUnder (decide (env.Touches g)) g.names l.key)

/-- Each setting by itself is the one of the environment, else the one of the file, else the standard one. -/
def LeafWise (env : Environment) (file : List (String × Data)) (s : Settings) : Prop :=
  ∀ l : Leaf, Takes l.read (env.valueAt? l.path <|> fileValue? env file l) (l.get standard) (l.get s)

namespace Leaf

theorem path_injective : Function.Injective path := by decide

theorem refusesTables : ∀ l : Leaf, RefusesTables l.read := by
  have hformat : RefusesTables (Data.asLabelled .layered : Data → Except SettingsError OutputFormat) := by
    intro t a h
    cases t with
    | nil => cases h
    | cons e rest =>
      simp only [Data.asLabelled, Dialect.layered, Bool.and_false] at h
      split at h
      · cases h
      · cases h
  intro l t a h
  cases l with
  | format => exact hformat t a h
  | _ => cases h

theorem key_mem_names {l : Leaf} {g : Group} (h : l.group? = some g) : l.key ∈ g.names := by
  cases l with
  | version | debug | logLevel => cases h
  | _ =>
    cases h
    decide

theorem path_of_group {l : Leaf} {g : Group} (h : l.group? = some g) : l.path = [g.key, l.key] := by
  rw [path, h]
  rfl

theorem path_of_no_group {l : Leaf} (h : l.group? = none) : l.path = [l.key] := by
  rw [path, h]
  rfl

/-- A leaf outside of sections has not the name of a section. -/
theorem key_ne_group {l : Leaf} (h : l.group? = none) (g : Group) : l.key ≠ g.key := by
  cases l with
  | version | debug | logLevel => cases g <;> decide
  | _ => cases h

theorem key_injective {l l' : Leaf} (hgroup : l.group? = l'.group?) (hkey : l.key = l'.key) : l = l' := by
  apply path_injective
  rw [path, path, hgroup, hkey]

end Leaf

theorem Group.key_injective : Function.Injective Group.key := by
  intro g g' h
  cases g <;> cases g'
  exacts [rfl, absurd h (by decide), absurd h (by decide), rfl]

/-! ## Variables -/

section Variables

variable {said : Leaf → Option Data} {entries : List (String × Data)} {l : Leaf} {g : Group}

/-- The entry of a section says this of the leaves of the section; there is none if it says nothing of any. -/
def GroupSays (g : Group) (said : Leaf → Option Data) (entry : Option Data) : Prop :=
  ∃ t : Option (List (String × Data)), entry = t.map .table ∧ (∀ u ∈ t, Table.Ascending u) ∧
    (t.isSome = true ↔ ∃ l : Leaf, l.group? = some g ∧ (said l).isSome = true) ∧
    ∀ l : Leaf, l.group? = some g → t.bind (·.lookup l.key) = said l

/-- The entries say this of each leaf. -/
structure Says (entries : List (String × Data)) (said : Leaf → Option Data) : Prop where
  order : Table.Ascending entries
  single : ∀ l : Leaf, l.group? = none → entries.lookup l.key = said l
  group : ∀ g : Group, GroupSays g said (entries.lookup g.key)

theorem says_nothing : Says [] fun _ => none :=
  ⟨.nil, fun _ _ => rfl, fun _ => ⟨none, rfl, nofun, ⟨nofun, fun ⟨_, _, h⟩ => nomatch h⟩, fun _ _ => rfl⟩⟩

/-- What is said of a leaf says nothing of the leaves of another section. -/
theorem update_of_group_ne {l' : Leaf} (h : l'.group? ≠ l.group?) (v : Option Data) :
    Function.update said l v l' = said l' :=
  Function.update_of_ne (fun heq => h (congrArg Leaf.group? heq)) _ _

theorem GroupSays.congr {entry : Option Data} (h : GroupSays g said entry) {said' : Leaf → Option Data}
    (hsaid : ∀ l : Leaf, l.group? = some g → said' l = said l) : GroupSays g said' entry := by
  obtain ⟨t, ht, horder, hsome, hlookup⟩ := h
  refine ⟨t, ht, horder, hsome.trans ?_, fun l hl => (hlookup l hl).trans (hsaid l hl).symm⟩
  exact exists_congr fun l => and_congr_right fun hl => by rw [hsaid l hl]

/-- One more leaf of the section, laid over what is said of the others. -/
theorem GroupSays.add {entry : Option Data} (h : GroupSays g said entry) (hgroup : l.group? = some g)
    (hl : said l = none) (v : Data) :
    GroupSays g (Function.update said l (some v)) (over? (some (.table [(l.key, v)])) entry) := by
  obtain ⟨t, rfl, horder, -, hlookup⟩ := h
  have hlower : ∃ lower, over? (some (.table [(l.key, v)])) (t.map .table) = some (.table (Table.put l.key v lower)) ∧
      Table.Ascending lower ∧ ∀ l' : Leaf, l'.group? = some g → lower.lookup l'.key = said l' := by
    cases t with
    | none => exact ⟨[], rfl, .nil, hlookup⟩
    | some u =>
      have hnone : u.lookup l.key = none := (hlookup l hgroup).trans hl
      refine ⟨u, ?_, horder u rfl, hlookup⟩
      simp [Data.laidOver_table, Data.overEntries, hnone]
  obtain ⟨lower, heq, hlower, hsaid⟩ := hlower
  refine ⟨some (Table.put l.key v lower), heq, ?_, ⟨fun _ => ⟨l, hgroup, by simp⟩, fun _ => rfl⟩, fun l' hl' => ?_⟩
  · rintro u hu
    cases hu
    exact Table.ascending_put hlower
  · rw [Option.bind_some, Table.lookup_put]
    by_cases heq : l' = l
    · subst heq
      simp
    · have hkey : l'.key ≠ l.key := fun hkey => heq (Leaf.key_injective (hl'.trans hgroup.symm) hkey)
      rw [if_neg hkey, Function.update_of_ne heq, hsaid l' hl']

theorem lookup_over_single (key : String) (v : Data) (entries : List (String × Data)) (k : String) :
    (Data.overEntries [(key, v)] entries).lookup k =
      if k = key then over? (some v) (entries.lookup k) else entries.lookup k := by
  have hkeys : ([(key, v)].map Prod.fst).Nodup := List.nodup_singleton key
  rw [Data.lookup_overEntries hkeys, Table.lookup_cons]
  split
  · rfl
  · rfl

/-- One more variable, for a leaf of which nothing is said yet. -/
theorem Says.add (h : Says entries said) (hl : said l = none) (v : Data) :
    ∃ entries', (Data.nest l.path v).laidOver (.table entries) = .table entries' ∧
      Says entries' (Function.update said l (some v)) := by
  cases hgroup : l.group? with
  | none =>
    rw [Leaf.path_of_no_group hgroup]
    refine ⟨_, Data.laidOver_table [(l.key, v)] entries, Data.ascending_overEntries h.order, fun l' hl' => ?_,
      fun g => ?_⟩
    · rw [lookup_over_single, h.single l' hl']
      by_cases heq : l' = l
      · subst heq
        simp [hl]
      · have hkey : l'.key ≠ l.key := fun hkey => heq (Leaf.key_injective (hl'.trans hgroup.symm) hkey)
        rw [if_neg hkey, Function.update_of_ne heq]
    · rw [lookup_over_single, if_neg (Leaf.key_ne_group hgroup g).symm]
      exact (h.group g).congr fun l' hl' => update_of_group_ne (by rw [hl', hgroup]; nofun) _
  | some g =>
    rw [Leaf.path_of_group hgroup]
    refine ⟨_, Data.laidOver_table [(g.key, .table [(l.key, v)])] entries, Data.ascending_overEntries h.order,
      fun l' hl' => ?_, fun g' => ?_⟩
    · rw [lookup_over_single, if_neg (Leaf.key_ne_group hl' g), h.single l' hl']
      exact (update_of_group_ne (by rw [hl', hgroup]; nofun) _).symm
    · rw [lookup_over_single]
      by_cases hg : g' = g
      · subst hg
        rw [if_pos rfl]
        exact (h.group g').add hgroup hl v
      · rw [if_neg fun hkey => hg (Group.key_injective hkey)]
        refine (h.group g').congr fun l' hl' => update_of_group_ne ?_ _
        rw [hl', hgroup]
        exact fun heq => hg (Option.some.inj heq)

end Variables

namespace Environment

theorem valueAt?_cons (v : String × String) (env : Environment) (path : List String) :
    valueAt? (v :: env) path = if keyPath? v.1 = some path then some (value v.2) else env.valueAt? path := by
  unfold valueAt?
  rw [List.find?_cons]
  by_cases h : keyPath? v.1 = some path
  · simp [h]
  · rw [if_neg h, beq_eq_false_iff_ne.mpr h]

theorem valueAt?_eq_none {env : Environment} {path : List String} (h : path ∉ env.paths) :
    env.valueAt? path = none := by
  induction env with
  | nil => rfl
  | cons v env ih =>
    rw [valueAt?_cons, if_neg, ih]
    · exact fun hmem => h (((List.sublist_cons_self v env).filterMap _).subset hmem)
    · exact fun hpath => h (List.mem_filterMap.mpr ⟨v, List.mem_cons_self, hpath⟩)

/-- Variables laid over what is said of other leaves. -/
theorem says_foldl {env : Environment} (hleaves : ∀ path ∈ env.paths, ∃ l : Leaf, l.path = path)
    (honce : env.paths.Nodup) {entries : List (String × Data)} {said : Leaf → Option Data} (h : Says entries said)
    (hnew : ∀ l : Leaf, l.path ∈ env.paths → said l = none) :
    ∃ entries', (env.filterMap layer?).foldl (fun below above => above.laidOver below) (.table entries) =
      .table entries' ∧ Says entries' fun l => env.valueAt? l.path <|> said l := by
  induction env generalizing entries said with
  | nil => exact ⟨entries, rfl, h⟩
  | cons v env ih =>
    cases hpath : keyPath? v.1 with
    | none =>
      have hpaths : paths (v :: env) = paths env := List.filterMap_cons_none hpath
      rw [hpaths] at hleaves honce hnew
      rw [List.filterMap_cons_none (by rw [layer?, hpath]; rfl)]
      simp only [valueAt?_cons, hpath, reduceCtorEq, if_false]
      exact ih hleaves honce h hnew
    | some path =>
      have hpaths : paths (v :: env) = path :: paths env := List.filterMap_cons_some hpath
      rw [hpaths] at hleaves honce hnew
      obtain ⟨l, rfl⟩ := hleaves path List.mem_cons_self
      obtain ⟨hfresh, honce⟩ := List.nodup_cons.mp honce
      obtain ⟨added, hadded, hsays⟩ := h.add (hnew l List.mem_cons_self) (value v.2)
      rw [List.filterMap_cons_some (by rw [layer?, hpath]; rfl), List.foldl_cons, hadded]
      obtain ⟨entries', hentries, hsays'⟩ := ih (fun p hp => hleaves p (List.mem_cons_of_mem _ hp)) honce hsays
        fun l' hl' => by
          rw [Function.update_of_ne (by rintro rfl; exact hfresh hl')]
          exact hnew l' (List.mem_cons_of_mem _ hl')
      refine ⟨entries', hentries, ?_⟩
      have hsaid : (fun l' : Leaf => valueAt? (v :: env) l'.path <|> said l') =
          fun l' => valueAt? env l'.path <|> Function.update said l (some (value v.2)) l' := by
        funext l'
        rw [valueAt?_cons, hpath]
        by_cases heq : l' = l
        · subst heq
          rw [if_pos rfl, valueAt?_eq_none hfresh, Function.update_self]
          rfl
        · rw [if_neg fun hp => heq (Leaf.path_injective (Option.some.inj hp).symm), Function.update_of_ne heq]
      rw [hsaid]
      exact hsays'

/-- All variables together say of each leaf what the variable for it says. -/
theorem layer_says {env : Environment} (henv : env.NamesLeaves) :
    ∃ entries, env.layer = .table entries ∧ Says entries fun l => env.valueAt? l.path := by
  obtain ⟨entries, hentries, hsays⟩ := says_foldl henv.leaves henv.once says_nothing fun _ _ => rfl
  exact ⟨entries, hentries, by simpa using hsays⟩

end Environment

/-! ## Names of variables -/

theorem trim_eq_self {cs : List Char} (h : ∀ c ∈ cs, Text.isBlank c = false) : Text.trim cs = cs := by
  have hdrop : ∀ {l : List Char}, (∀ c ∈ l, Text.isBlank c = false) → l.dropWhile Text.isBlank = l := by
    intro l hl
    cases l with
    | nil => rfl
    | cons c l => rw [List.dropWhile_cons_of_neg (by simp [hl c List.mem_cons_self])]
  rw [Text.trim, hdrop h, hdrop fun c hc => h c (List.mem_reverse.mp hc), List.reverse_reverse]

/-- Blanks are no letters. -/
theorem toLower_of_isBlank {c : Char} (h : Text.isBlank c = true) : c.toLower = c := by
  refine dif_neg ?_
  rintro ⟨hlow, hhigh⟩
  have hlow : 65 ≤ c.toNat := hlow
  have hhigh : c.toNat ≤ 90 := hhigh
  simp only [Text.isBlank, Text.blankRanges, List.any_cons, List.any_nil, Bool.or_eq_true, Bool.and_eq_true,
    decide_eq_true_eq, Bool.or_false] at h
  omega

/-- The name of the variable for a leaf, in lower case: two underscores stand between the keys of its path. -/
def Leaf.variableName (l : Leaf) : String := "cv_" ++ "__".intercalate l.path

/-- A leaf is set by the variable of its name, in whatever case it is written. -/
theorem keyPath?_of_variableName {l : Leaf} {name : String}
    (h : name.toList.map Char.toLower = l.variableName.toList) : keyPath? name = some l.path := by
  have hblank : ∀ c ∈ name.toList, Text.isBlank c = false := by
    intro c hc
    by_contra hblank
    rw [Bool.not_eq_false] at hblank
    have hmem : c ∈ l.variableName.toList := by
      rw [← h, ← toLower_of_isBlank hblank]
      exact List.mem_map_of_mem hc
    have hnone : l.variableName.toList.any Text.isBlank = false := by
      cases l <;> decide +kernel
    exact List.any_eq_false.mp hnone c hmem hblank
  unfold keyPath?
  rw [trim_eq_self hblank, h]
  cases l <;> decide +kernel

/-! ## Slots -/

theorem map_eq_ok {ε α β : Type} {x : Except ε α} {f : α → β} {b : β} (h : x.map f = .ok b) :
    ∃ a, x = .ok a ∧ b = f a := by
  cases x with
  | error e => cases h
  | ok a =>
    cases h
    exact ⟨a, rfl, rfl⟩

/-- A name assigns nothing but what it names. -/
theorem assign_keeps {s s' : Settings} {n : String} {v : Data} (h : assign .layered s n v = .ok s') :
    (n ≠ "version" → s'.version = s.version) ∧ (n ≠ "debug" → s'.debug = s.debug) ∧
      (n ≠ "log_level" → s'.logLevel = s.logLevel) ∧ (n ≠ "parsing" → s'.parsing = s.parsing) ∧
      (n ≠ "output" → s'.output = s.output) := by
  unfold assign at h
  split at h
  case h_6 =>
    cases h
    simp
  all_goals
    obtain ⟨a, -, rfl⟩ := map_eq_ok h
    simp

theorem parsing_assign_keeps {p p' : ParsingSettings} {n : String} {v : Data}
    (h : ParsingSettings.assign .layered p n v = .ok p') :
    (n ≠ "exclude_pch_declarations" → p'.excludePchDeclarations = p.excludePchDeclarations) ∧
      (n ≠ "diagnostics" → p'.diagnostics = p.diagnostics) ∧
      (n ≠ "default_args" → p'.defaultArguments = p.defaultArguments) ∧ (n ≠ "options" → p'.options = p.options) := by
  unfold ParsingSettings.assign at h
  split at h
  case h_5 =>
    cases h
    simp
  all_goals
    obtain ⟨a, -, rfl⟩ := map_eq_ok h
    simp

theorem output_assign_keeps {o o' : OutputSettings} {n : String} {v : Data}
    (h : OutputSettings.assign .layered o n v = .ok o') :
    (n ≠ "format" → o'.format = o.format) ∧ (n ≠ "max_depth" → o'.maxDepth = o.maxDepth) := by
  unfold OutputSettings.assign at h
  split at h
  case h_3 =>
    cases h
    simp
  all_goals
    obtain ⟨a, -, rfl⟩ := map_eq_ok h
    simp

/-- A leaf outside of sections is a slot of the settings. -/
theorem isSlot_single {l : Leaf} (hl : l.group? = none) : IsSlot (assign .layered) l.key l.get l.read := by
  constructor
  · intro s s' v h
    cases l with
    | version =>
      obtain ⟨n, hn, rfl⟩ := map_eq_ok h
      exact congrArg (Except.map UInt32.ofNat) hn
    | debug | logLevel =>
      obtain ⟨a, ha, rfl⟩ := map_eq_ok h
      exact ha
    | _ => cases hl
  · intro s s' n v hne h
    obtain ⟨hversion, hdebug, hlevel, -, -⟩ := assign_keeps h
    cases l with
    | version => exact hversion hne
    | debug => exact hdebug hne
    | logLevel => exact hlevel hne
    | _ => cases hl

theorem isSlot_parsing : IsSlot (assign .layered) "parsing" Settings.parsing
    fun v => v.asSection .layered ParsingSettings.names (ParsingSettings.assign .layered) .standard := by
  refine ⟨fun h => ?_, fun hne h => (assign_keeps h).2.2.2.1 hne⟩
  rw [assign_parsing] at h
  obtain ⟨p, hp, rfl⟩ := map_eq_ok h
  exact hp

theorem isSlot_output : IsSlot (assign .layered) "output" Settings.output
    fun v => v.asSection .layered OutputSettings.names (OutputSettings.assign .layered) .standard := by
  refine ⟨fun h => ?_, fun hne h => (assign_keeps h).2.2.2.2 hne⟩
  rw [assign_output] at h
  obtain ⟨o, ho, rfl⟩ := map_eq_ok h
  exact ho

/-- A leaf of a section is a slot of the section. -/
theorem isSlot_parsing_leaf {l : Leaf} (hl : l.group? = some .parsing) :
    IsSlot (ParsingSettings.assign .layered) l.key (fun p => l.get { standard with parsing := p }) l.read := by
  constructor
  · intro p p' v h
    cases l with
    | excludePchDeclarations | diagnostics | defaultArguments | options =>
      obtain ⟨a, ha, rfl⟩ := map_eq_ok h
      exact ha
    | _ => cases hl
  · intro p p' n v hne h
    obtain ⟨hexclude, hdiagnostics, harguments, hoptions⟩ := parsing_assign_keeps h
    cases l with
    | excludePchDeclarations => exact hexclude hne
    | diagnostics => exact hdiagnostics hne
    | defaultArguments => exact harguments hne
    | options => exact hoptions hne
    | _ => cases hl

theorem isSlot_output_leaf {l : Leaf} (hl : l.group? = some .output) :
    IsSlot (OutputSettings.assign .layered) l.key (fun o => l.get { standard with output := o }) l.read := by
  constructor
  · intro o o' v h
    cases l with
    | format =>
      obtain ⟨a, ha, rfl⟩ := map_eq_ok h
      exact ha
    | maxDepth =>
      obtain ⟨a, ha, rfl⟩ := map_eq_ok h
      exact congrArg (Except.map (Option.map UInt64.ofNat)) ha
    | _ => cases hl
  · intro o o' n v hne h
    obtain ⟨hformat, hdepth⟩ := output_assign_keeps h
    cases l with
    | format => exact hformat hne
    | maxDepth => exact hdepth hne
    | _ => cases hl

/-! ## Layers -/

/-- What the lowest layer holds is read as the standard settings. -/
theorem standardLayer_cases : ∃ entries, standardLayer = .table entries ∧ Table.Ascending entries ∧
    (∀ l : Leaf, l.group? = none → Takes l.read (entries.lookup l.key) (l.get standard) (l.get standard)) ∧
    ∀ g : Group, ∃ t, entries.lookup g.key = some (.table t) ∧ Table.Ascending t ∧
      ∀ l : Leaf, l.group? = some g → Takes l.read (t.lookup l.key) (l.get standard) (l.get standard) := by
  refine ⟨[("debug", .bool false), ("log_level", .text "warn"), ("output", .table [("format", .text "tree")]),
    ("parsing", .table [("default_args", .list [.text "-x", .text "c++"]), ("diagnostics", .bool true),
      ("exclude_pch_declarations", .bool true), ("options", .list [])]), ("version", .int 1)], rfl, ?_, fun l hl => ?_,
    fun g => ?_⟩
  · unfold Table.Ascending
    decide
  · cases l with
    | version | debug | logLevel => rfl
    | _ => cases hl
  · cases g with
    | parsing =>
      refine ⟨_, rfl, ?_, fun l hl => ?_⟩
      · unfold Table.Ascending
        decide
      · cases l with
        | excludePchDeclarations | diagnostics | defaultArguments | options => rfl
        | _ => cases hl
    | output =>
      refine ⟨_, rfl, ?_, fun l hl => ?_⟩
      · unfold Table.Ascending
        decide
      · cases l with
        | format | maxDepth => rfl
        | _ => cases hl

section Reading

variable {env : Environment} {vars file lowest : List (String × Data)} {s : Settings}

/-- The entries of three layers. -/
def layers (vars file lowest : List (String × Data)) : List (String × Data) :=
  Data.overEntries vars (Data.overEntries file lowest)

theorem lookup_layers (hvars : Table.Ascending vars) (hfile : Table.Ascending file) (k : String) :
    (layers vars file lowest).lookup k = over? (vars.lookup k) (over? (file.lookup k) (lowest.lookup k)) := by
  rw [layers, Data.lookup_overEntries hvars.nodup, Data.lookup_overEntries hfile.nodup]

/-- A slot of the settings depends on the entries under its name. -/
theorem takes_entry {α : Type} {name : String} {pick : Settings → α} {read : Data → Except SettingsError α}
    (hslot : IsSlot (assign .layered) name pick read) (hname : name ∈ names) (hvars : Table.Ascending vars)
    (hfile : Table.Ascending file) (hlowest : Table.Ascending lowest)
    (h : ofData .layered (.table (layers vars file lowest)) = .ok s) :
    Takes read (over? (vars.lookup name) (over? (file.lookup name) (lowest.lookup name))) (pick standard) (pick s) := by
  have horder : Table.Ascending (layers vars file lowest) :=
    Data.ascending_overEntries (Data.ascending_overEntries hlowest)
  rw [ofData_eq] at h
  have htakes := hslot.asSection (by decide) hname (fun t ht => by cases ht; exact horder.nodup) h
  rwa [Data.settingOf, lookup_layers hvars hfile] at htakes

/-- A leaf of a section in three layers. The section is picked out of the settings, and put among standard ones. -/
theorem takes_in_group {σ : Type} {g : Group} {l : Leaf} (hl : l.group? = some g) {put : σ → Settings}
    {pick : Settings → σ} {start : σ} {assignIn : σ → String → Data → Except SettingsError σ}
    (hgroup : IsSlot (assign .layered) g.key pick fun v => v.asSection .layered g.names assignIn start)
    (hleaf : IsSlot assignIn l.key (fun x => l.get (put x)) l.read)
    (hstart : l.get (put start) = l.get standard) (hpick : l.get (put (pick s)) = l.get s)
    (hvars : Says vars fun l => env.valueAt? l.path) (hfile : Data.Proper (.table file))
    (hlowest : Table.Ascending lowest) {t : List (String × Data)} (ht : lowest.lookup g.key = some (.table t))
    (htorder : Table.Ascending t) (hdefault : Takes l.read (t.lookup l.key) (l.get standard) (l.get standard))
    (h : ofData .layered (.table (layers vars file lowest)) = .ok s) :
    Takes l.read (env.valueAt? l.path <|> fileValue? env file l) (l.get standard) (l.get s) := by
  obtain ⟨u, hu, huorder, husome, hulookup⟩ := hvars.group g
  obtain ⟨hforder, hfeach⟩ : Table.Ascending file ∧ ∀ e ∈ file, e.2.Proper := by
    cases hfile with
    | table order each => exact ⟨order, each⟩
  have hfproper : ∀ v ∈ file.lookup g.key, v.Proper := by
    intro v hv
    obtain ⟨before, after, rfl, -⟩ := List.lookup_eq_some_iff.mp hv
    exact hfeach (g.key, v) (by simp)
  have hsection := takes_entry hgroup (by cases g <;> decide) hvars.order hforder hlowest h
  obtain ⟨v, hv⟩ : ∃ v, over? (u.map .table) (over? (file.lookup g.key) (some (.table t))) = some v := by
    cases u <;> cases file.lookup g.key <;> exact ⟨_, rfl⟩
  rw [hu, ht, hv] at hsection
  have htakes := hleaf.layers l.refusesTables (by cases g <;> decide) (Leaf.key_mem_names hl) htorder
    (by rw [hstart]; exact hdefault) hfproper huorder hv hsection
  rw [hstart, hpick, hulookup l hl] at htakes
  have hcovered : u.isSome = decide (env.Touches g) := by
    rw [Bool.eq_iff_iff, decide_eq_true_iff]
    exact husome
  rw [hcovered] at htakes
  rw [fileValue?, hl]
  exact htakes

/-- Settings read from three layers are told leaf by leaf. -/
theorem ofData_leafWise (henv : env.NamesLeaves) (hfile : Data.Proper (.table file))
    (h : ofData .layered (env.layer.laidOver ((Data.table file).laidOver standardLayer)) = .ok s) :
    LeafWise env file s := by
  obtain ⟨vars, hlayer, hvars⟩ := Environment.layer_says henv
  obtain ⟨lowest, hstandard, hlowest, hsingle, hgroups⟩ := standardLayer_cases
  rw [hlayer, hstandard, Data.laidOver_table, Data.laidOver_table] at h
  intro l
  cases hl : l.group? with
  | none =>
    have hforder : Table.Ascending file := by
      cases hfile with
      | table order each => exact order
    have hkey : l.key ∈ names := by
      cases l with
      | version | debug | logLevel => decide
      | _ => cases hl
    have htakes := takes_entry (isSlot_single hl) hkey hvars.order hforder hlowest h
    rw [hvars.single l hl] at htakes
    rw [fileValue?, hl]
    exact takes_layers l.refusesTables (hsingle l hl) htakes
  | some g =>
    obtain ⟨t, ht, htorder, hdefault⟩ := hgroups g
    cases g with
    | parsing =>
      have hput : ∀ s : Settings, l.get { standard with parsing := s.parsing } = l.get s := by
        intro s
        cases l with
        | excludePchDeclarations | diagnostics | defaultArguments | options => rfl
        | _ => cases hl
      exact takes_in_group hl isSlot_parsing (isSlot_parsing_leaf hl) (hput standard) (hput s) hvars hfile hlowest ht
        htorder (hdefault l hl) h
    | output =>
      have hput : ∀ s : Settings, l.get { standard with output := s.output } = l.get s := by
        intro s
        cases l with
        | format | maxDepth => rfl
        | _ => cases hl
      exact takes_in_group hl isSlot_output (isSlot_output_leaf hl) (hput standard) (hput s) hvars hfile hlowest ht
        htorder (hdefault l hl) h

end Reading

/-- What a settings file holds ascends at any depth; one that is missing holds nothing. -/
theorem fileLayer_proper {w : FileSystem.Place} {p : Path} {file : Data} (h : fileLayer w p = .ok file) :
    ∃ entries, file = .table entries ∧ Data.Proper (.table entries) := by
  unfold fileLayer at h
  split at h
  · cases h
    exact ⟨[], rfl, .table .nil (List.forall_mem_nil _)⟩
  · split at h
    · cases h
    · split at h
      · rename_i hentries
        cases h
        exact ⟨_, rfl, Wrapped.document_proper hentries⟩
      · cases h

/-- Settings that load are told leaf by leaf from what the environment and the file say. -/
theorem loadFrom_leafWise {w : FileSystem.Place} {env : Environment} (henv : env.NamesLeaves) {p : Path} {s : Settings}
    (h : loadFrom w env p = .ok s) : ∃ entries, fileLayer w p = .ok (.table entries) ∧ LeafWise env entries s := by
  unfold loadFrom at h
  split at h
  · cases h
  · rename_i file hfile
    obtain ⟨entries, rfl, hproper⟩ := fileLayer_proper hfile
    exact ⟨entries, hfile, ofData_leafWise henv hproper h⟩

end SyntaxView.Settings
