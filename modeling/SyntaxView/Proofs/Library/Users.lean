import Mathlib.Logic.Relation
import SyntaxView.Library.Loading

/-!
# The users of a parser library

A session is what one thread does with the library: it takes guards and drops them, creates indexes and drops them, in
any order (`Step`). What holds of every session is kept in its ledger (`Ledger`): who uses the library, who loaded it,
and how often it was loaded and unloaded.

- one taking and one giving back keep the ledger (`Ledger.acquire`, `Ledger.release`), a created index is one more user
  (`Ledger.createIndex`), and one that is refused leaves the library as it was (`Ledger.createIndex_error`);
- so one call keeps the ledger (`balanced_step`), and every run (`balanced_run`);
- main result: `users_balanced`.
-/

namespace SyntaxView.Library

/-! ## Loads and unloads -/

/-- What is logged when the library has been loaded. -/
def loadEvent : Event := .log .debug "Loaded libclang"

/-- What is logged when the library has been unloaded. -/
def unloadEvent : Event := .log .debug "Unloaded libclang"

def loads (events : List Event) : Nat := events.count loadEvent

def unloads (events : List Event) : Nat := events.count unloadEvent

@[simp] theorem loads_append (es fs : List Event) : loads (es ++ fs) = loads es + loads fs := List.count_append

@[simp] theorem unloads_append (es fs : List Event) : unloads (es ++ fs) = unloads es + unloads fs := List.count_append

@[simp] theorem loads_load : loads [loadEvent] = 1 := by decide

@[simp] theorem unloads_load : unloads [loadEvent] = 0 := by decide

@[simp] theorem loads_unload : loads [unloadEvent] = 0 := by decide

@[simp] theorem unloads_unload : unloads [unloadEvent] = 1 := by decide

/-- Nothing among the events is a load or an unload. -/
def Neutral (events : List Event) : Prop := loads events = 0 ∧ unloads events = 0

/-- What is shown between a created index and its owner is about neither loading nor unloading. -/
theorem neutral_indexEvents (mode : IndexMode) : Neutral
    [.createIndex mode.pch.code mode.diagnostics.code,
      .log .debug s!"Created index ({pchName mode.pch}, diagnostics {diagnosticsName mode.diagnostics})"] := by
  obtain ⟨pch, diagnostics⟩ := mode
  cases pch <;> cases diagnostics <;> exact ⟨by decide +kernel, by decide +kernel⟩

/-! ## What a call can do -/

/-- Taking the library fails only in an attempt to load it, loads it for the first user, or only counts one more. -/
theorem LoadState.acquire_cases (library : Loadable) (s : LoadState) :
    (∃ reason, s.acquire library = ⟨(.error (.libraryLoad reason), s), []⟩) ∨
    (s.users = 0 ∧ s.loaded = false ∧ s.acquire library = ⟨(.ok (), ⟨1, true, true⟩), [loadEvent]⟩) ∨
    ((0 < s.users ∨ s.loaded = true) ∧ s.acquire library = ⟨(.ok (), { s with users := s.users + 1 }), []⟩) := by
  obtain ⟨users, owned, loaded⟩ := s
  obtain ⟨l, refusal⟩ := library
  cases users with
  | zero =>
    cases loaded with
    | false =>
      cases refusal with
      | some reason => exact .inl ⟨reason, rfl⟩
      | none => exact .inr (.inl ⟨rfl, rfl, rfl⟩)
    | true => exact .inr (.inr ⟨.inr rfl, rfl⟩)
  | succ n => exact .inr (.inr ⟨.inl n.succ_pos, rfl⟩)

/-- Giving the library back unloads it for the last user, if it was loaded here, or only counts one less. -/
theorem LoadState.release_cases (s : LoadState) :
    (s.users ≤ 1 ∧ s.owned = true ∧ s.release = ⟨⟨0, false, false⟩, [unloadEvent]⟩) ∨
    ((1 < s.users ∨ s.owned = false) ∧ s.release = ⟨{ s with users := s.users - 1 }, []⟩) := by
  unfold release
  by_cases h : s.users - 1 = 0 ∧ s.owned = true
  · refine .inl ⟨by omega, h.2, ?_⟩
    simp only [h.1, h.2, and_self, ↓reduceIte]
    rfl
  · refine .inr ⟨?_, ?_⟩
    · by_cases howned : s.owned = true
      · have husers : s.users - 1 ≠ 0 := fun hlast => h ⟨hlast, howned⟩
        exact .inl (by omega)
      · exact .inr (by simpa using howned)
    · simp only [h, ↓reduceIte]
      rfl

/-- Once the library is taken for an index, its answer decides; where it refuses, it is given back. -/
theorem createIndex_of_acquire {library : Loadable} {s s' : LoadState} {events : List Event} (mode : IndexMode)
    (htake : s.acquire library = ⟨(.ok (), s'), events⟩) :
    (∃ others, Neutral others ∧ createIndex library mode s = ⟨(.ok ⟨library.library⟩, s'), events ++ others⟩) ∨
      ∃ others, Neutral others ∧ createIndex library mode s =
        ⟨(.error .indexCreation, s'.release.value), events ++ (others ++ s'.release.events)⟩ := by
  unfold createIndex
  by_cases hindex : library.library.indexes = true
  · refine .inl ⟨_, neutral_indexEvents mode, ?_⟩
    simp [bind, Traced.bind, htake, hindex, Traced.emit, Traced.log, pure, Traced.pure]
  · refine .inr ⟨[.createIndex mode.pch.code mode.diagnostics.code], ⟨rfl, rfl⟩, ?_⟩
    simp [bind, Traced.bind, htake, hindex, Traced.emit, pure, Traced.pure]

/-- Creating an index fails as taking the library fails, or takes it first. -/
theorem createIndex_cases (library : Loadable) (mode : IndexMode) (s : LoadState) :
    (∃ e, createIndex library mode s = ⟨(.error e, s), []⟩) ∨
    ∃ s' events, s.acquire library = ⟨(.ok (), s'), events⟩ := by
  rcases LoadState.acquire_cases library s with ⟨reason, h⟩ | ⟨-, -, h⟩ | ⟨-, h⟩
  · exact .inl ⟨.libraryLoad reason, by simp [createIndex, bind, Traced.bind, h, pure, Traced.pure]⟩
  · exact .inr ⟨_, _, h⟩
  · exact .inr ⟨_, _, h⟩

/-! ## The ledger -/

/-- What holds of the library with so many holders, after these events, if it was `foreign`, that is loaded by somebody
else, at the start. -/
structure Ledger (foreign : Bool) (holders : Nat) (s : LoadState) (events : List Event) : Prop where
  users_eq : s.users = holders
  loaded_of_used : 0 < s.users → s.loaded = true
  used_of_owned : s.owned = true → 0 < s.users
  loaded_eq : s.loaded = (foreign || s.owned)
  not_owned : foreign = true → s.owned = false
  loads_eq : loads events = unloads events + s.owned.toNat
  no_loads : foreign = true → loads events = 0

namespace Ledger

variable {foreign : Bool} {holders : Nat} {s : LoadState} {events : List Event}

/-- Events that are neither loads nor unloads do not enter the ledger. -/
theorem append_neutral (h : Ledger foreign holders s events) {others : List Event} (hothers : Neutral others) :
    Ledger foreign holders s (events ++ others) where
  users_eq := h.users_eq
  loaded_of_used := h.loaded_of_used
  used_of_owned := h.used_of_owned
  loaded_eq := h.loaded_eq
  not_owned := h.not_owned
  loads_eq := by simp [hothers.1, hothers.2, h.loads_eq]
  no_loads := fun hforeign => by simp [hothers.1, h.no_loads hforeign]

/-- Without users the library does not count as loaded here. -/
theorem not_owned_of_unused (h : Ledger foreign holders s events) (hnone : s.users = 0) : s.owned = false := by
  cases howned : s.owned with
  | false => rfl
  | true => exact absurd (h.used_of_owned howned) (by omega)

/-- One more user keeps the ledger. -/
theorem acquire (h : Ledger foreign holders s events) {library : Loadable} {s' : LoadState} {shown : List Event}
    (htake : s.acquire library = ⟨(.ok (), s'), shown⟩) : Ledger foreign (holders + 1) s' (events ++ shown) := by
  rcases LoadState.acquire_cases library s with ⟨reason, hcase⟩ | ⟨hnone, hunloaded, hcase⟩ | ⟨hheld, hcase⟩
  · rw [hcase] at htake
    cases htake
  · rw [hcase] at htake
    cases htake
    -- Nobody used the library, so it was neither owned nor foreign.
    have hforeign : foreign = false := by
      have := h.loaded_eq
      rw [hunloaded] at this
      cases foreign with
      | false => rfl
      | true => simp at this
    have howned : s.owned = false := h.not_owned_of_unused hnone
    subst hforeign
    have hholders : holders = 0 := by rw [← h.users_eq, hnone]
    refine ⟨by simp [hholders], fun _ => rfl, fun _ => Nat.one_pos, rfl, nofun, ?_, nofun⟩
    have hloads := h.loads_eq
    simp only [howned, loads_append, unloads_append] at hloads ⊢
    simp [hloads]
  · rw [hcase] at htake
    cases htake
    have hloaded : s.loaded = true := hheld.elim h.loaded_of_used id
    refine ⟨by simp [h.users_eq], fun _ => hloaded, fun _ => Nat.succ_pos _, h.loaded_eq, h.not_owned, ?_, ?_⟩
    · simpa using h.loads_eq
    · simpa using h.no_loads

/-- One user less keeps the ledger. -/
theorem release (h : Ledger foreign (holders + 1) s events) :
    Ledger foreign holders s.release.value (events ++ s.release.events) := by
  have husers := h.users_eq
  rcases LoadState.release_cases s with ⟨hlast, howned, hcase⟩ | ⟨hmore, hcase⟩
  · rw [hcase]
    have hforeign : foreign = false := by
      cases foreign with
      | false => rfl
      | true => exact absurd (h.not_owned rfl) (by simp [howned])
    have hholders : holders = 0 := by omega
    subst hforeign hholders
    refine ⟨rfl, nofun, nofun, rfl, nofun, ?_, nofun⟩
    have hloads := h.loads_eq
    simp only [howned, loads_append, unloads_append] at hloads ⊢
    simp [hloads]
  · rw [hcase]
    refine ⟨by simp [husers], fun _ => h.loaded_of_used (by omega), fun howned => ?_, h.loaded_eq, h.not_owned, ?_, ?_⟩
    · rcases hmore with hmore | hfree
      · exact Nat.sub_pos_of_lt hmore
      · simp [hfree] at howned
    · simpa using h.loads_eq
    · simpa using h.no_loads

/-- Taking the library and giving it back leaves its state as it was. -/
theorem release_acquire (h : Ledger foreign holders s events) {library : Loadable} {s' : LoadState}
    {shown : List Event} (htake : s.acquire library = ⟨(.ok (), s'), shown⟩) : s'.release.value = s := by
  rcases LoadState.acquire_cases library s with ⟨reason, hcase⟩ | ⟨hnone, hunloaded, hcase⟩ | ⟨hheld, hcase⟩
  · rw [hcase] at htake
    cases htake
  · rw [hcase] at htake
    cases htake
    have howned : s.owned = false := h.not_owned_of_unused hnone
    obtain ⟨users, owned, loaded⟩ := s
    simp only at hnone hunloaded howned
    subst hnone hunloaded howned
    rfl
  · rw [hcase] at htake
    cases htake
    rcases LoadState.release_cases { s with users := s.users + 1 } with ⟨hlast, howned, -⟩ | ⟨-, hback⟩
    · exact absurd (h.used_of_owned howned) (by simp at hlast; omega)
    · rw [hback]
      rfl

end Ledger

/-! ## Sessions -/

/-- Who holds the library, and what has been shown so far. -/
structure Session where
  state : LoadState
  /-- How many guards live that belong to no index. -/
  guards : Nat
  /-- The indexes that live. -/
  indexes : List Index
  events : List Event

/-- Nobody holds the library; somebody else may have loaded it. -/
def Session.start (foreign : Bool) : Session := ⟨⟨0, false, foreign⟩, 0, [], []⟩

/-- One call. Each comes with the library as it is at the time. -/
inductive Step (s : Session) : Session → Prop
  | guardTaken (library : Loadable) {state : LoadState} {shown : List Event}
      (call : s.state.acquire library = ⟨(.ok (), state), shown⟩) :
      Step s ⟨state, s.guards + 1, s.indexes, s.events ++ shown⟩
  | guardRefused (library : Loadable) {e : ParseError} {state : LoadState} {shown : List Event}
      (call : s.state.acquire library = ⟨(.error e, state), shown⟩) :
      Step s ⟨state, s.guards, s.indexes, s.events ++ shown⟩
  | guardDropped (live : 0 < s.guards) :
      Step s ⟨s.state.release.value, s.guards - 1, s.indexes, s.events ++ s.state.release.events⟩
  | indexCreated (library : Loadable) (mode : IndexMode) {index : Index} {state : LoadState} {shown : List Event}
      (call : createIndex library mode s.state = ⟨(.ok index, state), shown⟩) :
      Step s ⟨state, s.guards, s.indexes ++ [index], s.events ++ shown⟩
  | indexRefused (library : Loadable) (mode : IndexMode) {e : ParseError} {state : LoadState} {shown : List Event}
      (call : createIndex library mode s.state = ⟨(.error e, state), shown⟩) :
      Step s ⟨state, s.guards, s.indexes, s.events ++ shown⟩
  | indexDropped (i : Nat) (live : i < s.indexes.length) :
      Step s ⟨s.state.release.value, s.guards, s.indexes.eraseIdx i, s.events ++ s.state.release.events⟩

/-- A finite sequence of calls. -/
abbrev Run : Session → Session → Prop := Relation.ReflTransGen Step

/-- The ledger of a session, with a holder for each guard and each index. -/
def Session.Balanced (foreign : Bool) (s : Session) : Prop :=
  Ledger foreign (s.guards + s.indexes.length) s.state s.events

theorem balanced_start (foreign : Bool) : (Session.start foreign).Balanced foreign :=
  ⟨rfl, nofun, nofun, (Bool.or_false foreign).symm, fun _ => rfl, rfl, fun _ => rfl⟩

section Sessions

variable {foreign : Bool} {s t : Session} {library : Loadable}

/-- A guard that is refused leaves the library as it was. -/
theorem state_of_acquire_error {s s' : LoadState} {e : ParseError} {shown : List Event}
    (call : s.acquire library = ⟨(.error e, s'), shown⟩) : s' = s ∧ shown = [] := by
  rcases LoadState.acquire_cases library s with ⟨reason, hcase⟩ | ⟨-, -, hcase⟩ | ⟨-, hcase⟩
  · rw [hcase] at call
    cases call
    exact ⟨rfl, rfl⟩
  · rw [hcase] at call
    cases call
  · rw [hcase] at call
    cases call

/-- A created index is one more user. -/
theorem Ledger.createIndex {holders : Nat} {s s' : LoadState} {events shown : List Event} {mode : IndexMode}
    {index : Index} (h : Ledger foreign holders s events)
    (call : Library.createIndex library mode s = ⟨(.ok index, s'), shown⟩) :
    Ledger foreign (holders + 1) s' (events ++ shown) := by
  rcases createIndex_cases library mode s with ⟨e, hcase⟩ | ⟨state, taken, htake⟩
  · rw [hcase] at call
    cases call
  rcases createIndex_of_acquire mode htake with ⟨others, hothers, hcase⟩ | ⟨others, -, hcase⟩
  · rw [hcase] at call
    cases call
    rw [← List.append_assoc]
    exact (h.acquire htake).append_neutral hothers
  · rw [hcase] at call
    cases call

/-- An index that is refused leaves the library as it was: what was loaded for it is unloaded. -/
theorem Ledger.createIndex_error {holders : Nat} {s s' : LoadState} {events shown : List Event} {mode : IndexMode}
    {e : ParseError} (h : Ledger foreign holders s events)
    (call : Library.createIndex library mode s = ⟨(.error e, s'), shown⟩) :
    s' = s ∧ Ledger foreign holders s (events ++ shown) := by
  rcases createIndex_cases library mode s with ⟨e, hcase⟩ | ⟨state, taken, htake⟩
  · rw [hcase] at call
    cases call
    exact ⟨rfl, by simpa using h⟩
  rcases createIndex_of_acquire mode htake with ⟨others, -, hcase⟩ | ⟨others, hothers, hcase⟩
  · rw [hcase] at call
    cases call
  · rw [hcase] at call
    cases call
    have hback := h.release_acquire htake
    have hledger := ((h.acquire htake).append_neutral hothers).release
    rw [hback] at hledger
    exact ⟨hback, by simpa using hledger⟩

/-- One call keeps the ledger. -/
theorem balanced_step (h : s.Balanced foreign) (hstep : Step s t) : t.Balanced foreign := by
  cases hstep with
  | guardTaken library call =>
    have hledger := Ledger.acquire h call
    rwa [Nat.add_right_comm] at hledger
  | guardRefused library call =>
    obtain ⟨rfl, rfl⟩ := state_of_acquire_error call
    simpa [Session.Balanced] using h
  | guardDropped live =>
    refine Ledger.release ?_
    have hholders : s.guards - 1 + s.indexes.length + 1 = s.guards + s.indexes.length := by omega
    rw [hholders]
    exact h
  | indexCreated library mode call =>
    have hledger := Ledger.createIndex h call
    simpa [Session.Balanced, Nat.add_assoc] using hledger
  | indexRefused library mode call =>
    obtain ⟨rfl, hledger⟩ := Ledger.createIndex_error h call
    exact hledger
  | indexDropped i live =>
    refine Ledger.release ?_
    have hholders : s.guards + (s.indexes.eraseIdx i).length + 1 = s.guards + s.indexes.length := by
      rw [List.length_eraseIdx_of_lt live]
      omega
    rw [hholders]
    exact h

/-- Every run keeps the ledger. -/
theorem balanced_run (h : Run (.start foreign) s) : s.Balanced foreign := by
  induction h with
  | refl => exact balanced_start foreign
  | tail _ hstep ih => exact balanced_step ih hstep

end Sessions

/-- The library is used by exactly those who hold it, and it is loaded as long as there are any. Calls that fail leave
it as it was. When nobody is left, it is as it was at the start: what was loaded here has been unloaded as often as it
was loaded, and what somebody else loaded has not been unloaded. -/
theorem users_balanced {foreign : Bool} {s : Session} (h : Run (.start foreign) s) :
    s.state.users = s.guards + s.indexes.length ∧
    (0 < s.state.users → s.state.loaded = true) ∧
    (s.state.owned = true → 0 < s.state.users) ∧
    (∀ library e state shown, s.state.acquire library = ⟨(.error e, state), shown⟩ →
      state.users = s.state.users ∧ state.loaded = s.state.loaded) ∧
    (∀ library mode e state shown, createIndex library mode s.state = ⟨(.error e, state), shown⟩ →
      state.users = s.state.users ∧ state.loaded = s.state.loaded) ∧
    (s.state.users = 0 → s.state.loaded = foreign ∧ loads s.events = unloads s.events) ∧
    (s.state.owned = true → loads s.events = unloads s.events + 1) ∧
    (foreign = true → s.state.loaded = true ∧ loads s.events = 0 ∧ unloads s.events = 0) := by
  have hledger := balanced_run h
  refine ⟨hledger.users_eq, hledger.loaded_of_used, hledger.used_of_owned, ?_, ?_, ?_, ?_, ?_⟩
  · intro library e state shown call
    obtain ⟨rfl, -⟩ := state_of_acquire_error call
    exact ⟨rfl, rfl⟩
  · intro library mode e state shown call
    obtain ⟨rfl, -⟩ := Ledger.createIndex_error hledger call
    exact ⟨rfl, rfl⟩
  · intro hnone
    have howned := hledger.not_owned_of_unused hnone
    have hloaded := hledger.loaded_eq
    have hloads := hledger.loads_eq
    rw [howned] at hloaded hloads
    exact ⟨by simpa using hloaded, by simpa using hloads⟩
  · intro howned
    have hloads := hledger.loads_eq
    rw [howned] at hloads
    exact hloads
  · intro hforeign
    have hloaded := hledger.loaded_eq
    have hloads := hledger.loads_eq
    rw [hledger.not_owned hforeign, hledger.no_loads hforeign] at hloads
    rw [hforeign] at hloaded
    refine ⟨by simpa using hloaded, hledger.no_loads hforeign, by simpa using hloads.symm⟩

/-- A library that creates indexes if asked to, and parses nothing. -/
def idleLibrary (indexes : Bool) : ParserLibrary := ⟨indexes, fun _ => ⟨1, none⟩⟩

/-- A guard is refused because no library is found, an index because the library gives none; then a guard and an index
are taken, and the guard is dropped before the index. -/
theorem mixedSession_balanced : ∃ s : Session, Run (.start false) s ∧ s.guards = 0 ∧ s.indexes.length = 1 ∧
    s.state.users = 1 ∧ s.state.loaded = true ∧ loads s.events = 2 ∧ unloads s.events = 1 := by
  have hrun : ∃ s : Session, Run (.start false) s ∧ s.guards = 0 ∧ s.indexes.length = 1 ∧ s.state.owned = true ∧
      unloads s.events = 1 :=
    ⟨_, ((((Relation.ReflTransGen.refl.tail
      (.guardRefused (.error "none") rfl)).tail
      (.indexRefused (.ok (idleLibrary false)) ⟨.excluded, .disabled⟩ rfl)).tail
      (.guardTaken (.ok (idleLibrary true)) rfl)).tail
      (.indexCreated (.ok (idleLibrary true)) ⟨.excluded, .disabled⟩ rfl)).tail
      (.guardDropped Nat.one_pos), rfl, rfl, rfl, by decide +kernel⟩
  obtain ⟨s, hrun, hguards, hindexes, howned, hunloads⟩ := hrun
  obtain ⟨husers, hloaded, hused, -, -, -, hloads, -⟩ := users_balanced hrun
  refine ⟨s, hrun, hguards, hindexes, by omega, hloaded (hused howned), ?_, hunloads⟩
  rw [hloads howned, hunloads]

end SyntaxView.Library
