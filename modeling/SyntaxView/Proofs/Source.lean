import Mathlib.Data.List.Forall2
import SyntaxView.Source

/-!
# The results of sources

A source made from requests has one result for each, in order, and the result of a request does not depend on the other
requests: it is the one that a source of its own would give (`Alone`, `forall₂_alone_iff`). Once a library creates an
index, no failure of a request keeps a source from being made (`ofRequests_ok`). `partition` tells the parsed files from
the errors and keeps the order of both (`splits_results`).

Parsing shows log messages and calls only; nothing of it goes to the standard output (`Traced.Silent`).
-/

namespace SyntaxView

open Library

/-! ## What is written to the standard output -/

/-- What an event writes to the standard output. -/
def Event.outText : Event → String
  | .out text => text
  | _ => ""

/-- What events write to the standard output. -/
def outText (events : List Event) : String := String.join (events.map Event.outText)

@[simp] theorem outText_nil : outText [] = "" := rfl

@[simp] theorem outText_append (es fs : List Event) : outText (es ++ fs) = outText es ++ outText fs := by
  rw [outText, List.map_append, String.join_append]
  rfl

namespace Traced

variable {α β : Type}

/-- Nothing is written to the standard output. -/
def Silent (x : Traced α) : Prop := outText x.events = ""

theorem silent_pure (a : α) : (Pure.pure a : Traced α).Silent := rfl

theorem silent_log (level : Level) (message : String) : (log level message).Silent := rfl

/-- What comes after something silent is all that is written. -/
theorem Silent.outText_bind {x : Traced α} (hx : x.Silent) (f : α → Traced β) :
    SyntaxView.outText (x >>= f).events = SyntaxView.outText (f x.value).events := by
  rw [events_bind, outText_append, hx, String.empty_append]

theorem Silent.bind {x : Traced α} {f : α → Traced β} (hx : x.Silent) (hf : (f x.value).Silent) : (x >>= f).Silent :=
  (hx.outText_bind f).trans hf

theorem silent_each {act : α → Traced Unit} (h : ∀ a, (act a).Silent) : ∀ l : List α, (each act l).Silent
  | [] => rfl
  | a :: rest => (h a).bind (f := fun _ => each act rest) (silent_each h rest)

end Traced

/-! ## Parsing -/

namespace Library

/-- An error of parsing one file is not one of the library as a whole. -/
theorem exitCode_of_fault? {r : Request} {e : ParseError} (h : r.fault? = some e) : e.exitCode = .parse := by
  unfold Request.fault? at h
  split at h
  · cases h
    rfl
  split at h
  · cases h
    rfl
  · obtain ⟨u, -, hu⟩ := List.exists_of_findSome?_eq_some h
    split at hu
    · cases hu
      rfl
    split at hu
    · cases hu
      rfl
    · cases hu

theorem exitCode_errorOf (fileName : String) (code : Int32) : (errorOf fileName code).exitCode = .parse := by
  unfold errorOf
  repeat' split
  all_goals rfl

namespace ParserLibrary

theorem silent_parse (l : ParserLibrary) (r : Request) : (l.parse r).Silent := by
  unfold parse
  split
  · exact Traced.silent_pure _
  refine (Traced.silent_log _ _).bind (Traced.Silent.bind rfl ?_)
  cases h : (l.answer r).outcome r.fileName with
  | error e =>
    simp only [h]
    exact (Traced.silent_log _ _).bind (Traced.silent_pure _)
  | ok raw =>
    simp only [h]
    exact (Traced.silent_log _ _).bind (Traced.silent_pure _)

/-- For a request without a fault, the library's answer decides. -/
theorem parse_of_fault?_eq_none (l : ParserLibrary) {r : Request} (h : r.fault? = none) :
    (l.parse r).value = ((l.answer r).outcome r.fileName).map (RawUnit.toUnit r.fileName) := by
  simp only [parse, h, Traced.value_bind]
  cases (l.answer r).outcome r.fileName with
  | error e => rfl
  | ok raw => rfl

/-- A file that is not parsed is an error of parsing. -/
theorem exitCode_of_parse {l : ParserLibrary} {r : Request} {e : ParseError} (h : (l.parse r).value = .error e) :
    e.exitCode = .parse := by
  unfold parse at h
  split at h
  · rename_i e' he
    cases h
    exact exitCode_of_fault? he
  · simp only [Traced.value_bind] at h
    split at h
    · rename_i e' he
      cases h
      unfold Answer.outcome at he
      split at he
      · split at he
        · cases he
        · cases he
          exact exitCode_errorOf _ _
      · cases he
        exact exitCode_errorOf _ _
    · cases h

end ParserLibrary

end Library

/-! ## Indexes -/

namespace Library

/-- The library cannot be loaded, or it creates no index. -/
def NoIndex (library : Loadable) : Prop := ∀ l, library = .ok l → l.indexes = false

instance : (library : Loadable) → Decidable (NoIndex library)
  | ⟨_, some _⟩ => isTrue nofun
  | ⟨l, none⟩ => decidable_of_iff (l.indexes = false) ⟨fun h _ hl => by cases hl; exact h, fun h => h l rfl⟩

theorem exists_index {library : Loadable} (h : ¬ NoIndex library) :
    ∃ l, library = .ok l ∧ l.indexes = true := by
  simpa [NoIndex] using h

theorem LoadState.silent_acquire (library : Loadable) (s : LoadState) : (s.acquire library).Silent := by
  unfold acquire
  split
  · cases library.refusal with
    | some reason => exact Traced.silent_pure _
    | none => exact (Traced.silent_log _ _).bind (Traced.silent_pure _)
  · exact Traced.silent_pure _

theorem LoadState.silent_release (s : LoadState) : s.release.Silent := by
  unfold release
  dsimp only
  split
  · exact (Traced.silent_log _ _).bind (Traced.silent_pure _)
  · exact Traced.silent_pure _

theorem silent_createIndex (library : Loadable) (mode : IndexMode) (s : LoadState) :
    (createIndex library mode s).Silent := by
  unfold createIndex
  refine (s.silent_acquire library).bind ?_
  obtain ⟨result, s'⟩ := (s.acquire library).value
  cases result with
  | error e => exact Traced.silent_pure _
  | ok _ =>
    refine Traced.Silent.bind rfl ?_
    split
    · exact (Traced.silent_log _ _).bind (Traced.silent_pure _)
    · exact s'.silent_release.bind (Traced.silent_pure _)

theorem LoadState.acquire_ok (l : ParserLibrary) (s : LoadState) : ∃ s', (s.acquire (.ok l)).value = (.ok (), s') := by
  unfold acquire
  split
  · exact ⟨_, rfl⟩
  · exact ⟨_, rfl⟩

/-- A library that creates indexes creates one in every state. -/
theorem createIndex_ok {l : ParserLibrary} (hl : l.indexes = true) (mode : IndexMode) (s : LoadState) :
    ∃ s', (createIndex (.ok l) mode s).value = (.ok ⟨l⟩, s') := by
  obtain ⟨s', hs⟩ := s.acquire_ok l
  exact ⟨s', by simp [createIndex, hs, hl]⟩

/-- Without an index there is an error of the library, which no file is to blame for. -/
theorem createIndex_error {library : Loadable} (h : NoIndex library) (mode : IndexMode) :
    ∃ e s', (createIndex library mode .fresh).value = (.error e, s') ∧ e.exitCode = .general := by
  obtain ⟨l, _ | reason⟩ := library
  · obtain ⟨s', hs⟩ := LoadState.acquire_ok l .fresh
    have hl : l.indexes = false := h l rfl
    exact ⟨.indexCreation, s'.release.value, by simp [createIndex, hs, hl], rfl⟩
  · exact ⟨.libraryLoad reason, .fresh, rfl, rfl⟩

end Library

/-! ## Sources -/

namespace Source

variable {l : ParserLibrary} {mode : IndexMode}

/-- One more request adds its result after the others. -/
theorem parse_value (source : Source) (r : Request) : (source.parse r).value =
    { source with results := source.results ++ [(source.index.library.parse r).value] } := rfl

/-- A run of requests adds their results one after the other. -/
theorem parseAll_value : ∀ (source : Source) (rs : List Request), (source.parseAll rs).value =
    { source with results := source.results ++ rs.map fun r => (source.index.library.parse r).value }
  | source, [] => by simp [parseAll]
  | source, r :: rs => by
    rw [parseAll, Traced.value_bind, parseAll_value, parse_value]
    simp

/-- With an index, a source has the result of each request, in order. -/
theorem ofRequests_ok (hl : l.indexes = true) (mode : IndexMode) (rs : List Request) (s : LoadState) :
    ∃ s', (ofRequests (.ok l) mode rs s).value = (.ok ⟨⟨l⟩, rs.map fun r => (l.parse r).value⟩, s') := by
  obtain ⟨s', hs⟩ := createIndex_ok hl mode s
  exact ⟨s', by simp [ofRequests, create, hs, parseAll_value]⟩

theorem ofRequests_error {library : Loadable} (h : NoIndex library) (mode : IndexMode) (rs : List Request) :
    ∃ e s', (ofRequests library mode rs .fresh).value = (.error e, s') ∧ e.exitCode = .general := by
  obtain ⟨e, s', hs, hcode⟩ := createIndex_error h mode
  exact ⟨e, s', by simp [ofRequests, create, hs], hcode⟩

/-- With an index, a source has the result of each command of a database, in order. -/
theorem ofDatabase_ok (hl : l.indexes = true) (mode : IndexMode) (w : FileSystem.Place) (commands : List Command)
    (options : OptionSet) (s : LoadState) : ∃ s', (ofDatabase (.ok l) mode w commands options s).value =
      (.ok ⟨⟨l⟩, commands.map fun c => (l.parse (commandRequest w options c)).value⟩, s') := by
  obtain ⟨s', hs⟩ := ofRequests_ok hl mode (commands.map (commandRequest w options)) s
  exact ⟨s', by simp [ofDatabase, hs, Function.comp_def]⟩

/-! ### Silence -/

theorem silent_parseAll : ∀ (source : Source) (rs : List Request), (source.parseAll rs).Silent
  | source, [] => Traced.silent_pure _
  | source, r :: rs => by
    have hparse : (source.parse r).Silent := (source.index.library.silent_parse r).bind (Traced.silent_pure _)
    rw [parseAll]
    exact hparse.bind (silent_parseAll _ rs)

theorem silent_ofRequests (library : Loadable) (mode : IndexMode) (rs : List Request) (s : LoadState) :
    (ofRequests library mode rs s).Silent := by
  have hcreate : (create library mode s).Silent := by
    unfold create
    refine (silent_createIndex library mode s).bind ?_
    obtain ⟨_ | _, _⟩ := (createIndex library mode s).value
    · exact Traced.silent_pure _
    · exact Traced.silent_pure _
  unfold ofRequests
  refine hcreate.bind ?_
  obtain ⟨_ | source, _⟩ := (create library mode s).value
  · exact Traced.silent_pure _
  · exact (silent_parseAll source rs).bind (Traced.silent_pure _)

theorem silent_ofDatabase (library : Loadable) (mode : IndexMode) (w : FileSystem.Place) (commands : List Command)
    (options : OptionSet) (s : LoadState) : (ofDatabase library mode w commands options s).Silent := by
  unfold ofDatabase
  refine (silent_ofRequests library mode _ s).bind ?_
  obtain ⟨_ | _, _⟩ := (ofRequests library mode (commands.map (commandRequest w options)) s).value
  · exact Traced.silent_pure _
  · exact (Traced.silent_log _ _).bind (Traced.silent_pure _)

/-! ### Results of their own -/

/-- A source of its own gives this result for the request, in every mode and whatever state the library is in. -/
def Alone (library : Loadable) (r : Request) (result : ParseResult) : Prop :=
  ∀ (mode : IndexMode) (s : LoadState),
    ∃ source s', (ofRequests library mode [r] s).value = (.ok source, s') ∧ source.results = [result]

theorem alone_iff (hl : l.indexes = true) (r : Request) (result : ParseResult) :
    Alone (.ok l) r result ↔ (l.parse r).value = result := by
  constructor
  · intro h
    obtain ⟨source, s₁, hsource, hresults⟩ := h ⟨.excluded, .disabled⟩ .fresh
    obtain ⟨s₂, hs⟩ := ofRequests_ok hl ⟨.excluded, .disabled⟩ [r] .fresh
    rw [hs] at hsource
    cases hsource
    exact (List.cons.inj hresults).1
  · rintro rfl mode s
    obtain ⟨s', hs⟩ := ofRequests_ok hl mode [r] s
    exact ⟨_, s', hs, rfl⟩

/-- With an index, the results that requests have alone are what the library makes of them. -/
theorem forall₂_alone_iff (hl : l.indexes = true) {α : Type} (request : α → Request) {cs : List α}
    {results : List ParseResult} : List.Forall₂ (fun c result => Alone (.ok l) (request c) result) cs results ↔
      cs.map (fun c => (l.parse (request c)).value) = results := by
  simp only [alone_iff hl]
  rw [← List.forall₂_map_left_iff (R := Eq), List.forall₂_eq_eq_eq]

/-! ### Parsed files and errors -/

/-- The results are these parsed files and these errors, each in the order in which they stand among the results. -/
structure Splits (results : List ParseResult) (units : List ParsedFile) (errors : List ParseError) : Prop where
  units_eq : units.map Except.ok = results.filter fun r => r.isOk
  errors_eq : errors.map Except.error = results.filter fun r => !r.isOk
  length_add : units.length + errors.length = results.length

theorem splits_results : ∀ results : List ParseResult, Splits results (parsed results) (failed results)
  | [] => ⟨rfl, rfl, rfl⟩
  | .ok u :: rest => by
    obtain ⟨hu, he, hlen⟩ := splits_results rest
    refine ⟨congrArg (Except.ok u :: ·) hu, he, ?_⟩
    change (parsed rest).length + 1 + (failed rest).length = rest.length + 1
    omega
  | .error e :: rest => by
    obtain ⟨hu, he, hlen⟩ := splits_results rest
    refine ⟨hu, congrArg (Except.error e :: ·) he, ?_⟩
    change (parsed rest).length + ((failed rest).length + 1) = rest.length + 1
    omega

/-- Results split in one way only. -/
theorem Splits.unique {results : List ParseResult} {units : List ParsedFile} {errors : List ParseError}
    (h : Splits results units errors) : units = parsed results ∧ errors = failed results := by
  have hresults := splits_results results
  constructor
  · exact List.map_injective_iff.mpr (fun _ _ => Except.ok.inj) (h.units_eq.trans hresults.units_eq.symm)
  · exact List.map_injective_iff.mpr (fun _ _ => Except.error.inj) (h.errors_eq.trans hresults.errors_eq.symm)

end Source

end SyntaxView
