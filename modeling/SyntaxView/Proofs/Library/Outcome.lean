import Mathlib.Data.List.Forall2
import Mathlib.Data.List.ReduceOption
import SyntaxView.Library.Basic
import SyntaxView.Proofs.Source

/-!
# What comes of a request

A request is refused here if one of its texts cannot be handed over, and the first such text in the order file name,
arguments, unsaved files decides the error (`Request.Unfit`, `Request.fault?_of_unfit`); all other requests are `Fit`
and go to the library as they are. Its answer is judged by code and unit together (`Answer.Refuses`,
`Answer.outcome_error_iff`), and what an answer that counts is turned into is told by `Copies`.

Main result: `ParserLibrary.parse_classifies`.
-/

namespace SyntaxView

/-! ## Requests that can be handed over -/

namespace Library

/-- The text holds the character of code zero. -/
def HoldsNul (s : String) : Prop := Char.ofNat 0 ∈ s.toList

theorem hasNul_iff {s : String} : hasNul s = true ↔ HoldsNul s := List.contains_iff_mem

theorem hasNul_eq_false_iff {s : String} : hasNul s = false ↔ ¬ HoldsNul s := by
  rw [← hasNul_iff, Bool.not_eq_true]

/-- Both texts of an unsaved file can be handed over. -/
def UnsavedFile.Fit (u : UnsavedFile) : Prop := ¬ HoldsNul u.name ∧ ¬ HoldsNul u.contents

namespace Request

/-- All texts of the request can be handed over. -/
structure Fit (r : Request) : Prop where
  fileName : ¬ HoldsNul r.fileName
  arguments : ∀ word ∈ r.arguments, ¬ HoldsNul word
  unsaved : ∀ u ∈ r.unsaved, u.Fit

/-- The first text that cannot be handed over gives this error. -/
inductive Unfit (r : Request) : ParseError → Prop
  | fileName : HoldsNul r.fileName → Unfit r (.fileName r.fileName)
  | argument {before after : List String} {word : String} : ¬ HoldsNul r.fileName →
      r.arguments = before ++ word :: after → (∀ b ∈ before, ¬ HoldsNul b) → HoldsNul word →
      Unfit r (.argument r.fileName word)
  | unsavedName {before after : List UnsavedFile} {u : UnsavedFile} : ¬ HoldsNul r.fileName →
      (∀ word ∈ r.arguments, ¬ HoldsNul word) → r.unsaved = before ++ u :: after → (∀ b ∈ before, b.Fit) →
      HoldsNul u.name → Unfit r (.fileName u.name)
  | unsavedContents {before after : List UnsavedFile} {u : UnsavedFile} : ¬ HoldsNul r.fileName →
      (∀ word ∈ r.arguments, ¬ HoldsNul word) → r.unsaved = before ++ u :: after → (∀ b ∈ before, b.Fit) →
      ¬ HoldsNul u.name → HoldsNul u.contents → Unfit r (.unsavedContents u.name)

/-- The fault of one unsaved file. -/
def unsavedFault? (u : UnsavedFile) : Option ParseError :=
  if hasNul u.name then some (.fileName u.name)
  else if hasNul u.contents then some (.unsavedContents u.name)
  else none

theorem unsavedFault?_eq_none_iff {u : UnsavedFile} : unsavedFault? u = none ↔ u.Fit := by
  unfold unsavedFault? UnsavedFile.Fit
  simp only [← hasNul_iff]
  split
  · simp_all
  · split
    · simp_all
    · simp_all

theorem fault?_of_fileName {r : Request} (h : HoldsNul r.fileName) : r.fault? = some (.fileName r.fileName) := by
  rw [fault?, if_pos (hasNul_iff.2 h)]

theorem fault?_of_argument {r : Request} (hname : ¬ HoldsNul r.fileName) {before after : List String} {word : String}
    (hsplit : r.arguments = before ++ word :: after) (hbefore : ∀ b ∈ before, ¬ HoldsNul b) (hword : HoldsNul word) :
    r.fault? = some (.argument r.fileName word) := by
  have hfind : r.arguments.find? hasNul = some word := by
    rw [List.find?_eq_some_iff_append]
    refine ⟨hasNul_iff.2 hword, before, after, hsplit, ?_⟩
    intro b hb
    simp [hasNul_eq_false_iff.2 (hbefore b hb)]
  rw [fault?, if_neg (mt hasNul_iff.1 hname), hfind]

/-- Once the file name and the arguments are fit, the unsaved files decide. -/
theorem fault?_of_arguments {r : Request} (hname : ¬ HoldsNul r.fileName)
    (harguments : ∀ word ∈ r.arguments, ¬ HoldsNul word) : r.fault? = r.unsaved.findSome? unsavedFault? := by
  have hfind : r.arguments.find? hasNul = none := by
    rw [List.find?_eq_none]
    intro word hword
    exact mt hasNul_iff.1 (harguments word hword)
  rw [fault?, if_neg (mt hasNul_iff.1 hname), hfind]
  rfl

theorem fault?_of_unsaved {r : Request} (hname : ¬ HoldsNul r.fileName)
    (harguments : ∀ word ∈ r.arguments, ¬ HoldsNul word) {before after : List UnsavedFile} {u : UnsavedFile}
    {e : ParseError} (hsplit : r.unsaved = before ++ u :: after) (hbefore : ∀ b ∈ before, b.Fit)
    (hu : unsavedFault? u = some e) : r.fault? = some e := by
  rw [fault?_of_arguments hname harguments, List.findSome?_eq_some_iff]
  exact ⟨before, u, after, hsplit, hu, fun b hb => unsavedFault?_eq_none_iff.2 (hbefore b hb)⟩

theorem fault?_of_unfit {r : Request} {e : ParseError} (h : r.Unfit e) : r.fault? = some e := by
  cases h with
  | fileName hname => exact fault?_of_fileName hname
  | argument hname hsplit hbefore hword => exact fault?_of_argument hname hsplit hbefore hword
  | unsavedName hname harguments hsplit hbefore hu =>
    apply fault?_of_unsaved hname harguments hsplit hbefore
    rw [unsavedFault?, if_pos (hasNul_iff.2 hu)]
  | unsavedContents hname harguments hsplit hbefore hu hcontents =>
    apply fault?_of_unsaved hname harguments hsplit hbefore
    rw [unsavedFault?, if_neg (mt hasNul_iff.1 hu), if_pos (hasNul_iff.2 hcontents)]

theorem fault?_of_fit {r : Request} (h : r.Fit) : r.fault? = none := by
  rw [fault?_of_arguments h.fileName h.arguments, List.findSome?_eq_none_iff]
  intro u hu
  exact unsavedFault?_eq_none_iff.2 (h.unsaved u hu)

/-- Every request can be handed over or has a first text that cannot. -/
theorem fit_or_unfit (r : Request) : r.Fit ∨ ∃ e, r.Unfit e := by
  by_cases hname : HoldsNul r.fileName
  · exact .inr ⟨_, .fileName hname⟩
  cases hfind : r.arguments.find? hasNul with
  | some word =>
    obtain ⟨hword, before, after, hsplit, hbefore⟩ := List.find?_eq_some_iff_append.1 hfind
    refine .inr ⟨_, .argument hname hsplit ?_ (hasNul_iff.1 hword)⟩
    intro b hb
    exact hasNul_eq_false_iff.1 (by simpa using hbefore b hb)
  | none =>
    have harguments : ∀ word ∈ r.arguments, ¬ HoldsNul word := by
      intro word hword
      exact mt hasNul_iff.2 (List.find?_eq_none.1 hfind word hword)
    cases hunsaved : r.unsaved.findSome? unsavedFault? with
    | none =>
      refine .inl ⟨hname, harguments, ?_⟩
      intro u hu
      exact unsavedFault?_eq_none_iff.1 (List.findSome?_eq_none_iff.1 hunsaved u hu)
    | some e =>
      obtain ⟨before, u, after, hsplit, hu, hbefore⟩ := List.findSome?_eq_some_iff.1 hunsaved
      have hbefore : ∀ b ∈ before, b.Fit := fun b hb => unsavedFault?_eq_none_iff.1 (hbefore b hb)
      by_cases huname : HoldsNul u.name
      · exact .inr ⟨_, .unsavedName hname harguments hsplit hbefore huname⟩
      · refine .inr ⟨_, .unsavedContents hname harguments hsplit hbefore huname ?_⟩
        by_contra hcontents
        rw [unsavedFault?_eq_none_iff.2 ⟨huname, hcontents⟩] at hu
        cases hu

end Request

/-! ## Answers -/

/-- The answer is not a parsed file, and stands for this error. -/
inductive Answer.Refuses (fileName : String) (a : Answer) : ParseError → Prop
  | noUnit : a.code = 0 → a.unit = none → Refuses fileName a (.failure fileName)
  | failure : a.code = 1 → Refuses fileName a (.failure fileName)
  | crash : a.code = 2 → Refuses fileName a (.crash fileName)
  | invalidArguments : a.code = 3 → Refuses fileName a (.invalidArguments fileName)
  | treeRead : a.code = 4 → Refuses fileName a (.treeRead fileName)
  | unknown : a.code ∉ [0, 1, 2, 3, 4] → Refuses fileName a (.unknown a.code fileName)

theorem Answer.outcome_ok_iff {a : Answer} (fileName : String) {raw : RawUnit} :
    a.outcome fileName = .ok raw ↔ a.code = 0 ∧ a.unit = some raw := by
  unfold outcome
  cases a.unit with
  | none => simp
  | some u => by_cases h : a.code = 0 <;> simp [h]

/-- Unless code and unit say that the file was parsed, the code decides the error. -/
theorem Answer.outcome_of_code {a : Answer} (h : a.code = 0 → a.unit = none) (fileName : String) :
    a.outcome fileName = .error (errorOf fileName a.code) := by
  unfold outcome
  cases hu : a.unit with
  | none => rfl
  | some u =>
    have hcode : a.code ≠ 0 := by
      intro h0
      rw [h h0] at hu
      cases hu
    exact if_neg hcode

theorem Answer.refuses_errorOf {a : Answer} (h : a.code = 0 → a.unit = none) (fileName : String) :
    a.Refuses fileName (errorOf fileName a.code) := by
  unfold errorOf
  split
  · rename_i h01
    rcases h01 with h0 | h1
    · exact .noUnit h0 (h h0)
    · exact .failure h1
  split
  · exact .crash ‹_›
  split
  · exact .invalidArguments ‹_›
  split
  · exact .treeRead ‹_›
  · exact .unknown (by simp_all)

theorem Answer.errorOf_of_refuses {a : Answer} {fileName : String} {e : ParseError} (h : a.Refuses fileName e) :
    (a.code = 0 → a.unit = none) ∧ errorOf fileName a.code = e := by
  cases h with
  | noUnit h0 hu => exact ⟨fun _ => hu, by rw [h0]; rfl⟩
  | failure h => exact ⟨fun h0 => absurd (h.symm.trans h0) (by decide), by rw [h]; rfl⟩
  | crash h => exact ⟨fun h0 => absurd (h.symm.trans h0) (by decide), by rw [h]; rfl⟩
  | invalidArguments h => exact ⟨fun h0 => absurd (h.symm.trans h0) (by decide), by rw [h]; rfl⟩
  | treeRead h => exact ⟨fun h0 => absurd (h.symm.trans h0) (by decide), by rw [h]; rfl⟩
  | unknown h =>
    simp only [List.mem_cons, List.not_mem_nil, or_false, not_or] at h
    exact ⟨fun h0 => absurd h0 h.1, by simp [errorOf, h]⟩

theorem Answer.outcome_error_iff {a : Answer} {fileName : String} {e : ParseError} :
    a.outcome fileName = .error e ↔ a.Refuses fileName e := by
  constructor
  · intro h
    have hcode : a.code = 0 → a.unit = none := by
      intro h0
      by_contra hu
      obtain ⟨u, hu⟩ := Option.ne_none_iff_exists'.1 hu
      rw [(outcome_ok_iff fileName).2 ⟨h0, hu⟩] at h
      cases h
    rw [outcome_of_code hcode, Except.error.injEq] at h
    rw [← h]
    exact refuses_errorOf hcode fileName
  · intro h
    obtain ⟨hcode, he⟩ := errorOf_of_refuses h
    rw [outcome_of_code hcode, he]

end Library

/-! ## Parsed files -/

/-- The severity that a number stands for. -/
inductive Severity.Coded : Int32 → Severity → Prop
  | note : Coded 1 .note
  | warning : Coded 2 .warning
  | error : Coded 3 .error
  | fatal : Coded 4 .fatal
  | other {n : Int32} : n ∉ [1, 2, 3, 4] → Coded n .ignored

theorem Severity.coded_iff {n : Int32} {s : Severity} : Coded n s ↔ ofCode n = s := by
  constructor
  · intro h
    cases h with
    | other h =>
      simp only [List.mem_cons, List.not_mem_nil, or_false, not_or] at h
      simp [ofCode, h]
    | _ => rfl
  · rintro rfl
    unfold ofCode
    split
    · rename_i h
      exact h ▸ .note
    split
    · rename_i h
      exact h ▸ .warning
    split
    · rename_i h
      exact h ▸ .error
    split
    · rename_i h
      exact h ▸ .fatal
    · exact .other (by simp_all)

theorem Severity.Coded.isError_iff {n : Int32} {s : Severity} (h : Coded n s) : s.isError = true ↔ n = 3 ∨ n = 4 := by
  cases h with
  | other h =>
    simp only [List.mem_cons, List.not_mem_nil, or_false, not_or] at h
    simp [isError, h]
  | _ => decide

namespace Library

/-- The diagnostic says what the library reported. -/
structure RawDiagnostic.Reports (d : RawDiagnostic) (x : Diagnostic) : Prop where
  severity : Severity.Coded d.severity x.severity
  message : x.message = d.message.decode
  /-- A position counts if it lies in a file with a name. -/
  position : (d.location.toPosition.fileName = "" → x.position = none) ∧
    (d.location.toPosition.fileName ≠ "" → x.position = some d.location.toPosition)

theorem RawDiagnostic.reports_iff {d : RawDiagnostic} {x : Diagnostic} : d.Reports x ↔ d.toDiagnostic = x := by
  constructor
  · rintro ⟨hseverity, hmessage, hnone, hsome⟩
    obtain ⟨severity, message, position⟩ := x
    simp only at hseverity hmessage hnone hsome
    rw [toDiagnostic, Severity.coded_iff.1 hseverity, hmessage]
    by_cases h : d.location.toPosition.fileName = ""
    · simp [h, hnone h]
    · simp [h, hsome h]
  · rintro rfl
    exact ⟨Severity.coded_iff.2 rfl, rfl, fun h => by simp [toDiagnostic, h], fun h => by simp [toDiagnostic, h]⟩

/-- The parsed file is what the unit of an answer holds: the tree of its cursors, and of its diagnostics those that are
given, in order. -/
structure Copies (fileName : String) (raw : RawUnit) (f : ParsedFile) : Prop where
  fileName_eq : f.fileName = fileName
  tree_eq : f.tree = treeOf raw.cursors
  diagnostics : List.Forall₂ RawDiagnostic.Reports raw.diagnostics.reduceOption f.diagnostics

theorem diagnostics_toUnit (fileName : String) (raw : RawUnit) :
    (raw.toUnit fileName).diagnostics = raw.diagnostics.reduceOption.map RawDiagnostic.toDiagnostic := by
  rw [List.reduceOption, List.map_filterMap]
  rfl

theorem copies_iff {fileName : String} {raw : RawUnit} {f : ParsedFile} :
    Copies fileName raw f ↔ raw.toUnit fileName = f := by
  have heq : RawDiagnostic.Reports = fun d x => d.toDiagnostic = x := by
    funext d x
    exact propext RawDiagnostic.reports_iff
  have hreports : ∀ xs, List.Forall₂ RawDiagnostic.Reports raw.diagnostics.reduceOption xs ↔
      (raw.toUnit fileName).diagnostics = xs := by
    intro xs
    rw [heq, ← List.forall₂_map_left_iff (R := Eq), List.forall₂_eq_eq_eq, diagnostics_toUnit]
  constructor
  · rintro ⟨hname, htree, hlist⟩
    rw [hreports] at hlist
    cases f
    cases hname
    cases htree
    cases hlist
    rfl
  · rintro rfl
    exact ⟨rfl, rfl, (hreports _).2 rfl⟩

/-- A parsed file has errors exactly if a diagnostic that was given is one. -/
theorem Copies.hasErrors_iff {fileName : String} {raw : RawUnit} {f : ParsedFile} (h : Copies fileName raw f) :
    f.hasErrors = true ↔ ∃ d, some d ∈ raw.diagnostics ∧ (d.severity = 3 ∨ d.severity = 4) := by
  have herror : ∀ d : RawDiagnostic, d.toDiagnostic.isError = true ↔ d.severity = 3 ∨ d.severity = 4 := by
    intro d
    exact (RawDiagnostic.reports_iff.2 rfl).severity.isError_iff
  rw [← copies_iff.1 h, ParsedFile.hasErrors, diagnostics_toUnit, List.any_map, List.any_eq_true]
  simp only [List.reduceOption_mem_iff, Function.comp_apply, herror]

/-! ## Parsing -/

/-- The requests that the library is asked to parse, in order. -/
def asked (events : List Event) : List Request :=
  events.filterMap fun
    | .parse r => some r
    | _ => none

namespace ParserLibrary

/-- A request that is not fit is answered here. -/
theorem parse_of_unfit (l : ParserLibrary) {r : Request} {e : ParseError} (h : r.Unfit e) :
    l.parse r = Pure.pure (.error e) := by
  rw [parse, Request.fault?_of_unfit h]

theorem asked_parse (l : ParserLibrary) {r : Request} (h : r.Fit) : asked (l.parse r).events = [r] := by
  simp only [parse, Request.fault?_of_fit h, Traced.events_bind]
  cases (l.answer r).outcome r.fileName with
  | error e => rfl
  | ok raw => rfl

theorem parse_error_iff (l : ParserLibrary) {r : Request} (h : r.Fit) {e : ParseError} :
    (l.parse r).value = .error e ↔ (l.answer r).Refuses r.fileName e := by
  rw [l.parse_of_fault?_eq_none (Request.fault?_of_fit h), ← Answer.outcome_error_iff]
  cases (l.answer r).outcome r.fileName <;> simp [Except.map]

theorem parse_ok_iff (l : ParserLibrary) {r : Request} (h : r.Fit) {f : ParsedFile} :
    (l.parse r).value = .ok f ↔
      ∃ raw, (l.answer r).code = 0 ∧ (l.answer r).unit = some raw ∧ Copies r.fileName raw f := by
  rw [l.parse_of_fault?_eq_none (Request.fault?_of_fit h)]
  simp only [copies_iff, ← and_assoc, ← Answer.outcome_ok_iff r.fileName]
  cases (l.answer r).outcome r.fileName <;> simp [Except.map]

/-- **Every outcome of parsing is classified.** A request with a text that cannot be handed over gives the error of the
first such text, and the library is not asked. Any other request is put to the library once, as it is. Then the file is
parsed exactly if the code is zero and there is a unit, and the parsed file holds what is in the unit; for every other
answer the code decides the error, which names the file. -/
theorem parse_classifies (l : ParserLibrary) (r : Request) :
    (r.Fit ∨ ∃ e, r.Unfit e) ∧
    (∀ e, r.Unfit e → (l.parse r).value = .error e ∧ asked (l.parse r).events = []) ∧
    (r.Fit → asked (l.parse r).events = [r] ∧
      ((∃ f, (l.parse r).value = .ok f) ↔ (l.answer r).code = 0 ∧ (l.answer r).unit ≠ none) ∧
      (∀ e, (l.parse r).value = .error e ↔ (l.answer r).Refuses r.fileName e) ∧
      ∀ f, (l.parse r).value = .ok f → ∃ raw, (l.answer r).unit = some raw ∧ Copies r.fileName raw f ∧
        (f.hasErrors = true ↔ ∃ d, some d ∈ raw.diagnostics ∧ (d.severity = 3 ∨ d.severity = 4))) := by
  refine ⟨r.fit_or_unfit, ?_, ?_⟩
  · intro e h
    rw [l.parse_of_unfit h]
    exact ⟨rfl, rfl⟩
  · intro h
    refine ⟨l.asked_parse h, ?_, fun e => l.parse_error_iff h, ?_⟩
    · simp only [l.parse_ok_iff h, Option.ne_none_iff_exists']
      constructor
      · rintro ⟨f, raw, hcode, hunit, -⟩
        exact ⟨hcode, raw, hunit⟩
      · rintro ⟨hcode, raw, hunit⟩
        exact ⟨_, raw, hcode, hunit, copies_iff.2 rfl⟩
    · intro f hf
      obtain ⟨raw, -, hunit, hcopies⟩ := (l.parse_ok_iff h).1 hf
      exact ⟨raw, hunit, hcopies, hcopies.hasErrors_iff⟩

/-- A library that answers each request with success and no unit. -/
def hollowLibrary : ParserLibrary := ⟨true, fun _ => ⟨0, none⟩⟩

/-- A request with two arguments and an unsaved file that cannot be handed over. -/
def nulRequest : Request := ⟨"a.h", ["-x", "b\x00", "\x00"], [⟨"\x00", ""⟩], .empty⟩

theorem hollowLibrary_classifies :
    ((hollowLibrary.parse nulRequest).value = .error (.argument "a.h" "b\x00") ∧
      asked (hollowLibrary.parse nulRequest).events = []) ∧
    (hollowLibrary.parse { nulRequest with arguments := ["-x"], unsaved := [] }).value = .error (.failure "a.h") := by
  have hsplit : nulRequest.arguments = ["-x"] ++ "b\x00" :: ["\x00"] := rfl
  have hword : nulRequest.Unfit (.argument "a.h" "b\x00") := by
    refine .argument ?_ hsplit ?_ ?_ <;> simp [HoldsNul, nulRequest]
  have hfit : Request.Fit { nulRequest with arguments := ["-x"], unsaved := [] } := by
    constructor <;> simp [HoldsNul, nulRequest]
  refine ⟨(parse_classifies hollowLibrary nulRequest).2.1 _ hword, ?_⟩
  exact (((parse_classifies hollowLibrary _).2.2 hfit).2.2.1 _).2 (.noUnit rfl rfl)

end ParserLibrary

end Library

end SyntaxView
