import Mathlib.Tactic.SplitIfs
import SyntaxView.Proofs.Command.Grammar

/-!
# Command lines put together

Between two characters a scan has nothing in hand but its mode and the open word (`ScanState`). So a text that goes on
is scanned from the state in which its first part leaves the scan, behind the words which that part has finished
(`ScanState.rest_append`). Outside of quotes a blank takes every open word to its end and leads back to the state of the
start (`scan_blank`): nothing of the first part is left.

A line that ends in a backslash is the one exception, as the backslash takes the blank along. Such a line is told by the
grammar (`Dangles`), and the scan leaves it in a state of its own (`dangles_iff`). What comes after it still decides
alone whether the whole is a line, but the words are never those of both parts (`ScanState.rest_extend_ne`).
-/

namespace SyntaxView.Command

/-! ## The state between two characters -/

/-- What a scan has in hand between two characters. -/
structure ScanState where
  mode : Mode
  /-- The word read so far, backwards. -/
  word : Option (List Char)
  deriving DecidableEq

namespace ScanState

def start : ScanState := ⟨.bare, none⟩

/-- The state after one more character. -/
def next (s : ScanState) (c : Char) : ScanState :=
  match s.mode with
  | .bare =>
    if c = '\'' then ⟨.single, some (s.word.getD [])⟩
    else if c = '"' then ⟨.double, some (s.word.getD [])⟩
    else if c = '\\' then ⟨.escaped, s.word⟩
    else if Text.isBlank c then start
    else ⟨.bare, extend s.word c⟩
  | .escaped => ⟨.bare, extend s.word c⟩
  | .single => if c = '\'' then ⟨.bare, s.word⟩ else ⟨.single, extend s.word c⟩
  | .double =>
    if c = '"' then ⟨.bare, s.word⟩
    else if c = '\\' then ⟨.doubleEscaped, s.word⟩
    else ⟨.double, extend s.word c⟩
  | .doubleEscaped => ⟨.double, if quotable c then extend s.word c else extend (extend s.word '\\') c⟩

/-- The word that a character finishes, if it does. -/
def finishes (s : ScanState) (c : Char) : List String :=
  if s.mode = .bare ∧ Text.isBlank c = true then finished s.word else []

/-- The state after a text. -/
def after (s : ScanState) (cs : List Char) : ScanState := cs.foldl next s

/-- The words that are finished within a text. -/
def passed : ScanState → List Char → List String
  | _, [] => []
  | s, c :: cs => s.finishes c ++ (s.next c).passed cs

/-- The words from a state on. -/
def rest (s : ScanState) (cs : List Char) : Option (List String) := scan s.mode s.word cs

@[simp] theorem after_nil (s : ScanState) : s.after [] = s := rfl

@[simp] theorem after_cons (s : ScanState) (c : Char) (cs : List Char) :
    s.after (c :: cs) = (s.next c).after cs := rfl

theorem after_append (s : ScanState) (a b : List Char) : s.after (a ++ b) = (s.after a).after b :=
  List.foldl_append

/-- One character takes a scan to the next state, behind the word that it finishes. -/
theorem rest_cons (s : ScanState) (c : Char) (cs : List Char) :
    s.rest (c :: cs) = ((s.next c).rest cs).map (s.finishes c ++ ·) := by
  obtain ⟨mode, word⟩ := s
  cases mode with
  | bare =>
    by_cases hblank : Text.isBlank c = true
    · obtain ⟨hs, hd, hb⟩ := ne_of_isBlank hblank
      simp only [rest, next, finishes, hs, hd, hb, hblank, and_self, ↓reduceIte]
      exact scan_blank hblank word
    · simp only [rest, next, finishes, scan, hblank, and_false, ↓reduceIte, List.nil_append, Option.map_id',
        Bool.false_eq_true]
      split_ifs <;> rfl
  | escaped => simp [rest, next, finishes, scan]
  | single =>
    simp only [rest, next, finishes, scan, reduceCtorEq, false_and, ↓reduceIte, List.nil_append, Option.map_id']
    split_ifs <;> rfl
  | double =>
    simp only [rest, next, finishes, scan, reduceCtorEq, false_and, ↓reduceIte, List.nil_append, Option.map_id']
    split_ifs <;> rfl
  | doubleEscaped =>
    simp only [rest, next, finishes, scan, reduceCtorEq, false_and, ↓reduceIte, List.nil_append, Option.map_id']
    split_ifs <;> rfl

/-- A text that goes on is scanned from the state in which its first part leaves the scan. -/
theorem rest_append (s : ScanState) (a b : List Char) :
    s.rest (a ++ b) = ((s.after a).rest b).map (s.passed a ++ ·) := by
  induction a generalizing s with
  | nil => simp [passed]
  | cons c a ih =>
    rw [List.cons_append, rest_cons, ih, Option.map_map, after_cons, passed]
    congr 1
    funext ws
    simp

theorem passed_append (s : ScanState) (a b : List Char) : s.passed (a ++ b) = s.passed a ++ (s.after a).passed b := by
  induction a generalizing s with
  | nil => rfl
  | cons c a ih => rw [List.cons_append, passed, passed, ih, after_cons, List.append_assoc]

/-- A text may end outside of quotes, also behind a backslash. -/
theorem rest_nil_eq_some_iff {s : ScanState} {ws : List String} :
    s.rest [] = some ws ↔ (s.mode = .bare ∨ s.mode = .escaped) ∧ ws = finished s.word := by
  obtain ⟨mode, word⟩ := s
  cases mode <;> simp [rest, scan, eq_comm]

/-- Only a backslash outside of quotes starts an escape. -/
theorem next_mode_eq_escaped {s : ScanState} {c : Char} (h : (s.next c).mode = .escaped) :
    s.mode = .bare ∧ c = '\\' := by
  obtain ⟨mode, word⟩ := s
  cases mode with
  | bare =>
    by_cases hc : c = '\\'
    · exact ⟨rfl, hc⟩
    · simp only [next, hc, ↓reduceIte] at h
      split_ifs at h
      cases h
  | escaped => cases h
  | single =>
    simp only [next] at h
    split_ifs at h
  | double =>
    simp only [next] at h
    split_ifs at h
  | doubleEscaped => cases h

end ScanState

open ScanState (start)

/-! ## Lines that end in a backslash -/

/-- A command line without a backslash that nothing follows. -/
inductive ClosedLine : List Char → List String → Prop
  | mk {before body after : List Char} {ws : List String} : Blanks before → Words body ws → Blanks after →
      ClosedLine (before ++ body ++ after) ws

/-- The text ends in a backslash that is outside of quotes and not quoted itself: what stands before it is closed. -/
def Dangles (cs : List Char) : Prop := ∃ t ws, cs = t ++ ['\\'] ∧ ClosedLine t ws

section Lines

variable {cs : List Char} {ws : List String}

theorem ClosedLine.line (h : ClosedLine cs ws) {dangling : List Char} (hd : dangling = [] ∨ dangling = ['\\']) :
    Line (cs ++ dangling) ws := by
  obtain ⟨hb, hw, ha⟩ := h
  exact .mk hb hw ha hd

theorem Line.closed_or_dangles (h : Line cs ws) : ClosedLine cs ws ∨ Dangles cs := by
  obtain ⟨hb, hw, ha, rfl | rfl⟩ := h
  · rw [List.append_nil]
    exact .inl (.mk hb hw ha)
  · exact .inr ⟨_, _, rfl, .mk hb hw ha⟩

/-- A line leaves the scan outside of quotes, perhaps behind a backslash. -/
theorem line_iff_after : Line cs ws ↔ ((start.after cs).mode = .bare ∨ (start.after cs).mode = .escaped) ∧
    ws = start.passed cs ++ finished (start.after cs).word := by
  have happend := start.rest_append cs []
  rw [List.append_nil] at happend
  rw [← scan_bare_iff_line, show scan .bare none cs = start.rest cs from rfl, happend, Option.map_eq_some_iff]
  simp only [ScanState.rest_nil_eq_some_iff, and_assoc, exists_and_left, exists_eq_left]
  exact and_congr_right fun _ => eq_comm

theorem extend_ne_finished (word : Option (List Char)) (c : Char) : finished (extend word c) ≠ finished word := by
  cases word with
  | none => simp [finished, extend]
  | some w =>
    intro h
    have hlist := String.ofList_injective (List.head_eq_of_cons_eq h)
    have hlength := congrArg List.length hlist
    simp at hlength

theorem ClosedLine.after_mode (h : ClosedLine cs ws) : (start.after cs).mode = .bare := by
  obtain ⟨hmode, hws⟩ := line_iff_after.1 (by simpa using h.line (.inl rfl))
  obtain ⟨-, hws'⟩ := line_iff_after.1 (h.line (.inr rfl))
  refine hmode.resolve_right fun hescaped => ?_
  -- The backslash behind the line would be quoted and belong to the open word.
  have hword : ((start.after cs).next '\\').word = extend (start.after cs).word '\\' := by
    rw [ScanState.next, hescaped]
  have hpassed : (start.after cs).passed ['\\'] = [] := by
    simp [ScanState.passed, ScanState.finishes, hescaped]
  rw [ScanState.passed_append, hpassed, List.append_nil, ScanState.after_append, ScanState.after_cons,
    ScanState.after_nil, hword, hws] at hws'
  exact extend_ne_finished _ _ (List.append_cancel_left hws').symm

/-- A line ends in a backslash that quotes nothing exactly if the scan is left behind one. -/
theorem dangles_iff : Dangles cs ↔ (start.after cs).mode = .escaped := by
  have hforward : ∀ {cs}, Dangles cs → (start.after cs).mode = .escaped := by
    rintro - ⟨t, ws, rfl, hclosed⟩
    rw [ScanState.after_append, ScanState.after_cons, ScanState.after_nil, ScanState.next, hclosed.after_mode]
    rfl
  refine ⟨hforward, fun hescaped => ?_⟩
  rcases List.eq_nil_or_concat cs with rfl | ⟨t, c, rfl⟩
  · cases hescaped
  rw [List.concat_eq_append] at hescaped ⊢
  rw [ScanState.after_append] at hescaped
  obtain ⟨hmode, rfl⟩ := ScanState.next_mode_eq_escaped hescaped
  rcases (line_iff_after.2 ⟨.inl hmode, rfl⟩).closed_or_dangles with hclosed | hdangles
  · exact ⟨t, _, rfl, hclosed⟩
  · rw [hforward hdangles] at hmode
    cases hmode

instance (cs : List Char) : Decidable (Dangles cs) := decidable_of_iff _ dangles_iff.symm

end Lines

/-! ## The open word and what follows -/

namespace ScanState

/-- Within a word a character adds to it, or it is a blank that ends it. -/
theorem next_open (mode : Mode) (c : Char) : mode = .bare ∧ Text.isBlank c = true ∨ ∃ mode' added, ∀ w : List Char,
    next ⟨mode, some w⟩ c = ⟨mode', some (added ++ w)⟩ ∧ finishes ⟨mode, some w⟩ c = [] := by
  cases mode with
  | bare =>
    by_cases hblank : Text.isBlank c = true
    · exact .inl ⟨rfl, hblank⟩
    · refine .inr ?_
      simp only [next, finishes, hblank, Bool.false_eq_true, and_false, ↓reduceIte, and_true]
      split_ifs
      · exact ⟨.single, [], fun w => rfl⟩
      · exact ⟨.double, [], fun w => rfl⟩
      · exact ⟨.escaped, [], fun w => rfl⟩
      · exact ⟨.bare, [c], fun w => rfl⟩
  | escaped => exact .inr ⟨.bare, [c], fun w => ⟨rfl, rfl⟩⟩
  | single =>
    refine .inr ?_
    simp only [next, finishes, reduceCtorEq, false_and, ↓reduceIte, and_true]
    split_ifs
    · exact ⟨.bare, [], fun w => rfl⟩
    · exact ⟨.single, [c], fun w => rfl⟩
  | double =>
    refine .inr ?_
    simp only [next, finishes, reduceCtorEq, false_and, ↓reduceIte, and_true]
    split_ifs
    · exact ⟨.bare, [], fun w => rfl⟩
    · exact ⟨.doubleEscaped, [], fun w => rfl⟩
    · exact ⟨.double, [c], fun w => rfl⟩
  | doubleEscaped =>
    refine .inr ?_
    simp only [next, finishes, reduceCtorEq, false_and, ↓reduceIte, and_true]
    split_ifs
    · exact ⟨.double, [c], fun w => rfl⟩
    · exact ⟨.double, [c, '\\'], fun w => rfl⟩

/-- A character that is no blank begins a word or adds to it; a backslash does so with the character after it. -/
theorem next_begun {mode : Mode} {c : Char}
    (h : mode = .escaped ∨ mode = .bare ∧ Text.isBlank c = false ∧ c ≠ '\\') : ∃ mode' added, ∀ word,
    next ⟨mode, word⟩ c = ⟨mode', some (added ++ word.getD [])⟩ ∧ finishes ⟨mode, word⟩ c = [] := by
  rcases h with rfl | ⟨rfl, hblank, hb⟩
  · exact ⟨.bare, [c], fun word => ⟨rfl, rfl⟩⟩
  · simp only [next, finishes, hblank, hb, Bool.false_eq_true, and_false, ↓reduceIte, and_true]
    split_ifs
    · exact ⟨.single, [], fun word => rfl⟩
    · exact ⟨.double, [], fun word => rfl⟩
    · exact ⟨.bare, [c], fun word => rfl⟩

/-- Of the words from within a word on, the first goes on from the open word, and nothing else depends on it. -/
theorem exists_rest_of_open (mode : Mode) (cs : List Char) : ∃ r : Option (List Char × List String),
    ∀ w, rest ⟨mode, some w⟩ cs = r.map fun p => String.ofList (w.reverse ++ p.1) :: p.2 := by
  induction cs generalizing mode with
  | nil =>
    have hended : ∀ w, rest ⟨.bare, some w⟩ [] =
        (some ([], [])).map fun p : List Char × List String => String.ofList (w.reverse ++ p.1) :: p.2 := by
      intro w
      simp [rest, scan, finished]
    cases mode with
    | bare | escaped => exact ⟨some ([], []), hended⟩
    | single | double | doubleEscaped => exact ⟨none, fun w => rfl⟩
  | cons c cs ih =>
    rcases next_open mode c with ⟨rfl, hblank⟩ | ⟨mode', added, hnext⟩
    · refine ⟨(start.rest cs).map ([], ·), fun w => ?_⟩
      rw [show rest ⟨.bare, some w⟩ (c :: cs) = scan .bare (some w) (c :: cs) from rfl, scan_blank hblank,
        Option.map_map]
      simp [Function.comp_def, finished, rest, start]
    · obtain ⟨r, hr⟩ := ih mode'
      refine ⟨r.map fun p => (added.reverse ++ p.1, p.2), fun w => ?_⟩
      rw [rest_cons, (hnext w).1, (hnext w).2, hr, Option.map_map, Option.map_map]
      simp [Function.comp_def]

/-- A text outside of quotes leaves the open word as it is, or it adds to the word, or begins one. -/
theorem leaves_or_adds (cs : List Char) :
    (∃ r : Option (List String), ∀ word, rest ⟨.bare, word⟩ cs = r.map (finished word ++ ·)) ∨
      ∃ r : Option (List Char × List String), ∀ word, rest ⟨.bare, word⟩ cs =
        r.map fun p => String.ofList ((word.getD []).reverse ++ p.1) :: p.2 := by
  have hadds : ∀ {mode : Mode} {c : Char} (cs : List Char),
      mode = .escaped ∨ mode = .bare ∧ Text.isBlank c = false ∧ c ≠ '\\' →
      ∃ r : Option (List Char × List String), ∀ word, rest ⟨mode, word⟩ (c :: cs) =
        r.map fun p => String.ofList ((word.getD []).reverse ++ p.1) :: p.2 := by
    intro mode c cs hbegun
    obtain ⟨mode', added, hnext⟩ := next_begun hbegun
    obtain ⟨r, hr⟩ := exists_rest_of_open mode' cs
    refine ⟨r.map fun p => (added.reverse ++ p.1, p.2), fun word => ?_⟩
    rw [rest_cons, (hnext word).1, (hnext word).2, hr, Option.map_map, Option.map_map]
    simp [Function.comp_def]
  cases cs with
  | nil => exact .inl ⟨some [], fun word => by simp [rest, scan]⟩
  | cons c cs =>
    by_cases hblank : Text.isBlank c = true
    · exact .inl ⟨start.rest cs, fun word => scan_blank hblank word⟩
    rw [Bool.not_eq_true] at hblank
    by_cases hb : c = '\\'
    · subst hb
      -- What the backslash does depends on whether a character follows it.
      cases cs with
      | nil => exact .inl ⟨some [], fun word => by simp [rest, scan]⟩
      | cons d cs =>
        obtain ⟨r, hr⟩ := hadds (c := d) cs (.inl rfl)
        exact .inr ⟨r, hr⟩
    · exact .inr (hadds cs (.inr ⟨rfl, hblank, hb⟩))

/-- Whether a text outside of quotes completes a line does not depend on the open word. -/
theorem rest_eq_none_iff (word word' : Option (List Char)) (cs : List Char) :
    rest ⟨.bare, word⟩ cs = none ↔ rest ⟨.bare, word'⟩ cs = none := by
  rcases leaves_or_adds cs with ⟨r, hr⟩ | ⟨r, hr⟩
  · rw [hr, hr, Option.map_eq_none_iff, Option.map_eq_none_iff]
  · rw [hr, hr, Option.map_eq_none_iff, Option.map_eq_none_iff]

/-- With one more character in the open word, the words are not those of the two parts. -/
theorem rest_extend_ne {cs : List Char} {ws : List String} (h : start.rest cs = some ws) (word : Option (List Char))
    (c : Char) : rest ⟨.bare, extend word c⟩ cs ≠ some (finished word ++ ws) := by
  intro hextend
  rcases leaves_or_adds cs with ⟨r, hr⟩ | ⟨r, hr⟩
  · rw [start, hr, Option.map_eq_some_iff] at h
    obtain ⟨ws', rfl, rfl⟩ := h
    rw [hr, Option.map_some, Option.some.injEq] at hextend
    exact extend_ne_finished word c (List.append_cancel_right hextend)
  · rw [start, hr, Option.map_eq_some_iff] at h
    obtain ⟨p, rfl, rfl⟩ := h
    rw [hr, Option.map_some, Option.some.injEq] at hextend
    cases word with
    | none =>
      -- The first word of the text has got the character in front.
      have hlist := String.ofList_injective (List.head_eq_of_cons_eq hextend)
      have hlength := congrArg List.length hlist
      simp [extend] at hlength
    | some w =>
      -- Two words have become one.
      have hlength := congrArg List.length hextend
      simp [finished] at hlength

end ScanState

/-! ## Two texts with a blank between them -/

/-- A blank between a line and another text divides them: the whole is a line exactly if the text is one, and then its
words are those of the line and those of the text, unless the line ends in a backslash that takes the blank along. -/
theorem split_append_blank {a : String} {wa : List String} (ha : split a = some wa) {c : Char}
    (hc : Text.isBlank c = true) (b : String) :
    (split (a ++ String.singleton c ++ b) = none ↔ split b = none) ∧
      ∀ wb, split b = some wb →
        (split (a ++ String.singleton c ++ b) = some (wa ++ wb) ↔ ¬Dangles a.toList) := by
  have hsplit : split (a ++ String.singleton c ++ b) =
      ((start.after a.toList).rest (c :: b.toList)).map (start.passed a.toList ++ ·) := by
    rw [← ScanState.rest_append]
    simp [split, ScanState.rest, start]
  have hb : split b = start.rest b.toList := rfl
  obtain ⟨hmode, rfl⟩ := line_iff_after.1 (scan_bare_iff_line.1 ha)
  rw [hsplit, hb, dangles_iff]
  generalize start.passed a.toList = passed
  generalize start.after a.toList = s at hmode ⊢
  obtain ⟨mode, word⟩ := s
  rcases hmode with rfl | rfl
  · have hrest : ScanState.rest ⟨.bare, word⟩ (c :: b.toList) = (start.rest b.toList).map (finished word ++ ·) :=
      scan_blank hc word
    rw [hrest]
    refine ⟨by simp, fun wb hwb => ?_⟩
    simp [hwb]
  · have hrest : ScanState.rest ⟨.escaped, word⟩ (c :: b.toList) = ScanState.rest ⟨.bare, extend word c⟩ b.toList := by
      simp [ScanState.rest, scan]
    rw [hrest]
    refine ⟨?_, fun wb hwb => ?_⟩
    · rw [Option.map_eq_none_iff]
      exact ScanState.rest_eq_none_iff _ _ _
    · have hne := ScanState.rest_extend_ne hwb word c
      simp [List.append_assoc, hne]

/-- A line that ends in an empty word in quotes, an ideographic space, and a flag in quotes. -/
theorem quotedFlag_appended :
    split "cc \x27\x27" = some ["cc", ""] ∧ Text.isBlank '\u3000' = true ∧ split "\"-D X\"" = some ["-D X"] ∧
      split ("cc \x27\x27" ++ String.singleton '\u3000' ++ "\"-D X\"") = some ["cc", "", "-D X"] := by
  have ha : split "cc \x27\x27" = some ["cc", ""] := by decide +kernel
  have hc : Text.isBlank '\u3000' = true := by decide
  have hb : split "\"-D X\"" = some ["-D X"] := by decide +kernel
  have hdangles : ¬Dangles "cc \x27\x27".toList := by decide +kernel
  exact ⟨ha, hc, hb, ((split_append_blank ha hc "\"-D X\"").2 _ hb).2 hdangles⟩

/-- A backslash at the end takes the blank along. -/
example : split "cc\\" = some ["cc"] ∧ split ("cc\\" ++ String.singleton ' ' ++ "-g") = some ["cc -g"] := by
  decide +kernel

end SyntaxView.Command
