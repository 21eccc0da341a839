import Mathlib.Data.List.DropRight
import Mathlib.Tactic.SplitIfs
import SyntaxView.Proofs.Toml.Document

/-!
# Editions that take the same

An edition is below another one if it allows nothing that the other does not. Then whatever it reads, the other reads as
the same data (`parse_mono`). This goes from reader to reader, and most of them only pass it on. There are three places
where a wider edition could read a text in another way than as a failure of the narrow one:

- A word that is a time without seconds could be a number. But numbers have no colons in them
  (`isNumeral_of_wordValue?`).
- A value in brackets could be a word where the nesting ends. But no word starts with a bracket (`scalarValue_head`).
- Line ends and comments in an inline table could belong to what follows. But neither keys nor values start with them
  (`keyPath?_head`, `value_head`), so both editions skip the same (`skipInline_mono`).

So a text of the edition that both have in common is read alike by both (`parse_alike`).
-/

namespace SyntaxView.Toml

/-! ## The order of editions -/

namespace Edition

/-- The edition allows nothing that the other does not. -/
structure Le (e e' : Edition) : Prop where
  least : e'.least ≤ e.least
  most : e.most ≤ e'.most
  nesting : e.nesting ≤ e'.nesting
  shortEscapes : e.shortEscapes = true → e'.shortEscapes = true
  openTables : e.openTables = true → e'.openTables = true
  briefTimes : e.briefTimes = true → e'.briefTimes = true
  lowFloats : e.lowFloats = true → e'.lowFloats = true

instance : LE Edition := ⟨Le⟩

/-- What both editions allow: the first one, without floats below the range of double precision. -/
def common : Edition := { first with lowFloats := false }

theorem common_le_first : common ≤ first where
  least := by decide
  most := by decide
  nesting := by decide
  shortEscapes := id
  openTables := id
  briefTimes := id
  lowFloats := nofun

theorem common_le_second : common ≤ second where
  least := by decide
  most := by decide
  nesting := by decide
  shortEscapes := nofun
  openTables := nofun
  briefTimes := nofun
  lowFloats := nofun

end Edition

variable {e e' : Edition} {cs rest : List Char}

/-! ## Texts and keys -/

theorem escaped?_mono (he : e ≤ e') {c d : Char} (h : escaped? e c = some d) : escaped? e' c = some d := by
  by_cases hshort : e.shortEscapes = true
  · simpa [escaped?, hshort, he.shortEscapes hshort] using h
  · have hc : c ≠ 'e' := by
      rintro rfl
      simp [escaped?, hshort] at h
    simpa [escaped?, hc] using h

theorem escapeDigits?_mono (he : e ≤ e') {c : Char} {n : Nat} (h : escapeDigits? e c = some n) :
    escapeDigits? e' c = some n := by
  by_cases hshort : e.shortEscapes = true
  · simpa [escapeDigits?, hshort, he.shortEscapes hshort] using h
  · have hc : c ≠ 'x' := by
      rintro rfl
      simp [escapeDigits?, hshort] at h
    simpa [escapeDigits?, hc] using h

/-- The letter of an escape by number is no other escape, in any edition. -/
theorem escaped?_of_escapeDigits? {c : Char} {n : Nat} (h : escapeDigits? e c = some n) : escaped? e' c = none := by
  unfold escapeDigits? at h
  split_ifs at h with hfour height htwo
  · simp [escaped?, hfour]
  · simp [escaped?, height]
  · simp [escaped?, htwo.1]

/-- A blank after a backslash is no escape in any edition. -/
theorem escaped?_blank {c : Char} (hc : c ∈ [' ', '\t', '\n', '\r']) :
    escaped? e c = none ∧ escapeDigits? e c = none := by
  simp only [List.mem_cons, List.not_mem_nil, or_false] at hc
  rcases hc with rfl | rfl | rfl | rfl <;> simp [escaped?, escapeDigits?]

theorem quotedFrom_mono (he : e ≤ e') {f : QuoteForm} {state : QuoteState} {acc : List Char} {r : String × List Char}
    (h : quotedFrom e f state acc cs = some r) : quotedFrom e' f state acc cs = some r := by
  fun_induction quotedFrom e f state acc cs with
  | case18 acc c cs d hd ih =>
    rw [quotedFrom.eq_def]
    simp only [escaped?_mono he hd, ih h]
  | case19 acc c cs n hn _ ih =>
    rw [quotedFrom.eq_def]
    simp only [escaped?_of_escapeDigits? hn, escapeDigits?_mono he hn, ih h]
  | case21 acc c cs _ _ hlines hspace ih =>
    have hblank : c ∈ [' ', '\t', '\n', '\r'] := by
      simp only [isSpace, Bool.or_eq_true, beq_iff_eq] at hspace
      rcases hspace with rfl | rfl <;> decide
    obtain ⟨hnone, hnone'⟩ := escaped?_blank (e := e') hblank
    simp_all [quotedFrom.eq_def e' f .escape]
  | case22 acc cs hlines _ _ hspace ih =>
    obtain ⟨hnone, hnone'⟩ := escaped?_blank (e := e') (c := '\n') (by decide)
    simp_all [quotedFrom.eq_def e' f .escape]
  | case23 acc hlines rest _ _ hspace _ ih =>
    obtain ⟨hnone, hnone'⟩ := escaped?_blank (e := e') (c := '\r') (by decide)
    simp_all [quotedFrom.eq_def e' f .escape]
  | _ =>
    -- Outside of escapes, the edition does not matter.
    rw [quotedFrom.eq_def]
    simp_all +zetaDelta [-not_le, -Nat.not_le]

theorem text?_mono (he : e ≤ e') {r : String × List Char} (h : text? e cs = some r) : text? e' cs = some r := by
  unfold text? at h ⊢
  split at h
  · exact quotedFrom_mono he h
  · exact quotedFrom_mono he h
  · exact quotedFrom_mono he h
  · exact quotedFrom_mono he h
  · cases h

theorem key?_mono (he : e ≤ e') {r : String × List Char} (h : key? e cs = some r) : key? e' cs = some r := by
  unfold key? at h ⊢
  split at h
  · exact quotedFrom_mono he h
  · exact quotedFrom_mono he h
  · exact h

theorem keyPathFrom_mono (he : e ≤ e') {n m : Nat} (hnm : n ≤ m) {r : List String × List Char}
    (h : keyPathFrom e n cs = some r) : keyPathFrom e' m cs = some r := by
  induction n generalizing m cs r with
  | zero => cases h
  | succ n ih =>
    obtain ⟨m, rfl⟩ := Nat.exists_eq_succ_of_ne_zero (Nat.ne_of_gt (Nat.lt_of_lt_of_le n.succ_pos hnm))
    simp only [keyPathFrom, Option.bind_eq_bind, Option.bind_eq_some_iff] at h ⊢
    obtain ⟨⟨key, rest⟩, hkey, h⟩ := h
    refine ⟨(key, rest), key?_mono he hkey, ?_⟩
    split at h
    · simp only [Option.bind_eq_some_iff] at h ⊢
      obtain ⟨⟨path, rest'⟩, hpath, h⟩ := h
      exact ⟨(path, rest'), ih (Nat.le_of_succ_le_succ hnm) hpath, h⟩
    · exact h

theorem keyPath?_mono (he : e ≤ e') {r : List String × List Char} (h : keyPath? e cs = some r) :
    keyPath? e' cs = some r :=
  keyPathFrom_mono he he.nesting h

/-! ## Words -/

/-! ### Dates, floats and integers -/

theorem time?_mono (he : e ≤ e') (h : time? e cs = some rest) : time? e' cs = some rest := by
  simp only [time?, Option.bind_eq_bind, Option.bind_eq_some_iff] at h ⊢
  obtain ⟨hour, hhour, h⟩ := h
  refine ⟨hour, hhour, ?_⟩
  split at h
  · simp only [Option.bind_eq_some_iff] at h ⊢
    obtain ⟨minute, hminute, h⟩ := h
    refine ⟨minute, hminute, ?_⟩
    split at h
    · exact h
    · split at h
      · rename_i hbrief
        rwa [if_pos (he.briefTimes hbrief)]
      · cases h
  · cases h

theorem isDateTime_mono (he : e ≤ e') (h : isDateTime e cs = true) : isDateTime e' cs = true := by
  have htime {cs : List Char} (h : isTimeWithOffset e cs = true) : isTimeWithOffset e' cs = true := by
    unfold isTimeWithOffset at h ⊢
    split at h
    · rename_i htime
      rwa [time?_mono he htime]
    · cases h
  unfold isDateTime at h ⊢
  split at h
  · rfl
  · rw [Bool.and_eq_true] at h ⊢
    exact ⟨h.1, htime h.2⟩
  · rw [beq_iff_eq] at h ⊢
    exact time?_mono he h

theorem isFloat_mono (he : e ≤ e') (h : isFloat e cs = true) : isFloat e' cs = true := by
  have hlow := he.lowFloats
  unfold isFloat at h ⊢
  dsimp only at h ⊢
  split at h
  · rename_i hspecial
    rw [if_pos hspecial]
  · rename_i hspecial
    rw [if_neg hspecial]
    split at h
    · simp only [Bool.or_eq_true, Bool.and_eq_true] at h ⊢
      exact h.imp_left fun h => ⟨h.1, hlow h.2⟩
    · cases h

theorem holds_mono (he : e ≤ e') {n : Int} (h : e.holds n = true) : e'.holds n = true := by
  have hleast := he.least
  have hmost := he.most
  simp only [Edition.holds, Bool.and_eq_true, decide_eq_true_eq] at h ⊢
  omega

/-! ### The characters of numbers -/

/-- The character may stand in a number, unlike a colon or an opening bracket. -/
def isNumeral (c : Char) : Bool := c != ':' && c != '[' && c != '\x7b'

theorem isNumeral_of_class (isIn : Char → Bool) {c : Char} (hc : isIn c = true)
    (hothers : [':', '[', '\x7b'].any isIn = false) : isNumeral c = true := by
  have hne := ne_of_class hc hothers
  simp only [List.mem_cons, List.not_mem_nil, or_false, forall_eq_or_imp, forall_eq] at hne
  simp [isNumeral, hne]

theorem isNumeral_of_isDigit {c : Char} (hc : isDigit c = true) : isNumeral c = true :=
  isNumeral_of_class isDigit hc (by decide)

theorem isNumeral_of_ungroup {isDig : Char → Bool} (hdig : ∀ c, isDig c = true → isNumeral c = true) {ds : List Char}
    (h : ungroup isDig cs = some ds) : ∀ c ∈ cs, isNumeral c = true := by
  have hunderscore : isNumeral '_' = true := by decide
  fun_induction ungroup isDig cs generalizing ds with
  | case1 | case3 | case5 | case7 => cases h
  | case2 c hc => simpa using hdig c hc
  | case4 c rest hc ih =>
    obtain ⟨ds, hds, -⟩ := Option.map_eq_some_iff.1 h
    simpa [hdig c hc, hunderscore] using ih hds
  | case6 c rest _ _ hc ih =>
    obtain ⟨ds, hds, -⟩ := Option.map_eq_some_iff.1 h
    simpa [hdig c hc] using ih hds

theorem isNumeral_of_wholeDigits? {ds : List Char} (h : wholeDigits? cs = some ds) : ∀ c ∈ cs, isNumeral c = true := by
  unfold wholeDigits? at h
  split at h
  · cases h
  · exact isNumeral_of_ungroup (fun _ => isNumeral_of_isDigit) h

theorem isNumeral_of_signed (h : ∀ c ∈ (signed cs).2, isNumeral c = true) : ∀ c ∈ cs, isNumeral c = true := by
  have hplus : isNumeral '+' = true := by decide
  have hminus : isNumeral '-' = true := by decide
  unfold signed at h
  split at h
  · simpa [hplus] using h
  · simpa [hminus] using h
  · exact h

theorem isNumeral_of_based? {base : Nat} {n : Int} (h : based? base cs = some n) : ∀ c ∈ cs, isNumeral c = true := by
  obtain ⟨ds, hds, -⟩ := Option.map_eq_some_iff.1 h
  refine isNumeral_of_ungroup (fun c hc => ?_) hds
  split at hc
  · rename_i hd
    exact isNumeral_of_class (fun c => (Json.hexDigit? c).isSome) (by simp [hd]) (by decide)
  · cases hc

theorem isNumeral_of_integer? {n : Int} (h : integer? cs = some n) : ∀ c ∈ cs, isNumeral c = true := by
  have hmarks : ∀ c ∈ ['0', 'x', 'o', 'b'], isNumeral c = true := List.all_eq_true.1 rfl
  unfold integer? at h
  split at h
  · simpa [hmarks] using isNumeral_of_based? h
  · simpa [hmarks] using isNumeral_of_based? h
  · simpa [hmarks] using isNumeral_of_based? h
  · obtain ⟨ds, hds, -⟩ := Option.map_eq_some_iff.1 h
    exact isNumeral_of_signed (isNumeral_of_wholeDigits? hds)

/-- A text is told by what stands before a mark and what stands after it. -/
theorem isNumeral_of_parts (isBefore : Char → Bool) (hmark : ∀ c, isBefore c = false → isNumeral c = true)
    (hbefore : ∀ c ∈ cs.takeWhile isBefore, isNumeral c = true)
    (hafter : ∀ m after, cs.dropWhile isBefore = m :: after → ∀ c ∈ after, isNumeral c = true) :
    ∀ c ∈ cs, isNumeral c = true := by
  intro c hc
  rw [← List.takeWhile_append_dropWhile (p := isBefore) (l := cs), List.mem_append] at hc
  rcases hc with hc | hc
  · exact hbefore c hc
  · have hhead := List.head?_dropWhile_not isBefore cs
    cases hrest : cs.dropWhile isBefore with
    | nil => simp [hrest] at hc
    | cons m after =>
      rw [hrest] at hc hhead
      rcases List.mem_cons.1 hc with rfl | hc
      · exact hmark c hhead
      · exact hafter m after hrest c hc

theorem isNumeral_of_decimal? {l : Decimal} (h : decimal? cs = some l) : ∀ c ∈ cs, isNumeral c = true := by
  have hdigits {ds : List Char} {r : List Char} (hds : ungroup isDigit ds = some r) : ∀ c ∈ ds, isNumeral c = true :=
    isNumeral_of_ungroup (fun _ => isNumeral_of_isDigit) hds
  simp only [decimal?, Option.bind_eq_bind, Option.bind_eq_some_iff] at h
  obtain ⟨whole, hwhole, h⟩ := h
  refine isNumeral_of_signed (isNumeral_of_parts (!isExponentMark ·) (fun c hc => ?_)
    (isNumeral_of_parts (· != '.') (fun c hc => ?_) (isNumeral_of_wholeDigits? hwhole) ?_) ?_)
  · exact isNumeral_of_class isExponentMark (by simpa using hc) (by decide)
  · rw [bne_eq_false_iff_eq] at hc
    rw [hc]
    decide
  · intro m after hfraction
    rw [hfraction] at h
    simp only [Option.bind_eq_some_iff, Option.map_eq_some_iff] at h
    obtain ⟨-, ⟨ds, hds, -⟩, -⟩ := h
    exact hdigits hds
  · intro m after hexponent
    rw [hexponent] at h
    refine isNumeral_of_signed ?_
    split at h
    all_goals
      simp only [Option.bind_eq_some_iff, Option.map_eq_some_iff] at h
    · obtain ⟨-, -, -, ⟨ds, hds, -⟩, -⟩ := h
      exact hdigits hds
    · obtain ⟨-, -, -, ⟨ds, hds, -⟩, -⟩ := h
      exact hdigits hds

theorem isNumeral_of_isFloat (h : isFloat e cs = true) : ∀ c ∈ cs, isNumeral c = true := by
  unfold isFloat at h
  dsimp only at h
  split at h
  · rename_i hspecial
    have hletters : ∀ c ∈ "inf".toList ++ "nan".toList, isNumeral c = true := List.all_eq_true.1 rfl
    refine isNumeral_of_signed fun c hc => hletters c (List.mem_append.2 ?_)
    rw [← String.toList_ofList (l := (signed cs).2)] at hc
    rcases hspecial with heq | heq
    · exact .inl (heq ▸ hc)
    · exact .inr (heq ▸ hc)
  · split at h
    · rename_i hdecimal
      exact isNumeral_of_decimal? hdecimal
    · cases h

/-! ### The characters of dates -/

theorem mem_of_twoDigits? {least most n : Nat} (h : twoDigits? least most cs = some (n, rest)) {c : Char}
    (hc : c ∈ rest) : c ∈ cs := by
  unfold twoDigits? at h
  split at h
  · dsimp only at h
    split at h
    · cases h
      simp [hc]
    · cases h
  · cases h

theorem mem_of_date? (h : date? cs = some rest) {c : Char} (hc : c ∈ rest) : c ∈ cs := by
  unfold date? at h
  split at h
  · split at h
    · cases h
    · simp only [Option.bind_eq_bind, Option.bind_eq_some_iff] at h
      obtain ⟨⟨month, afterMonth⟩, hmonth, h⟩ := h
      split at h
      · rename_i hhyphen
        simp only [Option.bind_eq_some_iff] at h
        obtain ⟨⟨day, afterDay⟩, hday, h⟩ := h
        cases h
        have hmem := mem_of_twoDigits? hday hc
        have hmem' := mem_of_twoDigits? hmonth (hhyphen ▸ List.mem_cons_of_mem '-' hmem)
        simp [hmem']
      · cases h
  · cases h

theorem colon_mem_of_time? (h : time? e cs = some rest) : ':' ∈ cs := by
  simp only [time?, Option.bind_eq_bind, Option.bind_eq_some_iff] at h
  obtain ⟨⟨hour, afterHour⟩, hhour, h⟩ := h
  split at h
  · rename_i after hcolon
    have hafter : afterHour = ':' :: after := hcolon
    subst hafter
    exact mem_of_twoDigits? hhour List.mem_cons_self
  · cases h

/-- What is a date or a time in one edition only has a colon in it. -/
theorem colon_mem_of_isDateTime (h : isDateTime e' cs = true) (hnot : isDateTime e cs = false) : ':' ∈ cs := by
  unfold isDateTime at h hnot
  split at h
  · rename_i hdate
    simp [hdate] at hnot
  · rename_i c after hdate
    rw [Bool.and_eq_true] at h
    have htime := h.2
    unfold isTimeWithOffset at htime
    split at htime
    · rename_i htime'
      exact mem_of_date? hdate (List.mem_cons_of_mem c (colon_mem_of_time? htime'))
    · cases htime
  · rw [beq_iff_eq] at h
    exact colon_mem_of_time? h

theorem isDigit_of_twoDigits? {least most : Nat} {c : Char} {r : Nat × List Char}
    (h : twoDigits? least most (c :: cs) = some r) : isDigit c = true := by
  unfold twoDigits? at h
  split at h
  · rename_i heq
    cases heq
    dsimp only at h
    split at h
    · exact (‹_ ∧ _› : _ ∧ _).1
    · cases h
  · cases h

theorem isDigit_of_date? {c : Char} (h : date? (c :: cs) = some rest) : isDigit c = true := by
  unfold date? at h
  split at h
  · rename_i heq
    cases heq
    split at h
    · cases h
    · rename_i hdigits
      simp only [List.any_cons, Bool.or_eq_true, not_or] at hdigits
      simpa using hdigits.1
  · cases h

theorem isDigit_of_isDateTime {c : Char} (h : isDateTime e (c :: cs) = true) : isDigit c = true := by
  unfold isDateTime at h
  split at h
  · exact isDigit_of_date? ‹_›
  · exact isDigit_of_date? ‹_›
  · rw [beq_iff_eq] at h
    simp only [time?, Option.bind_eq_bind, Option.bind_eq_some_iff] at h
    obtain ⟨hour, hhour, -⟩ := h
    exact isDigit_of_twoDigits? hhour

/-! ### Words as a whole -/

/-- A word that is no date has no colon and no bracket in it. -/
theorem isNumeral_of_wordValue? {v : Data} (h : wordValue? e cs = some v) (hdate : isDateTime e cs = false) :
    ∀ c ∈ cs, isNumeral c = true := by
  unfold wordValue? at h
  split at h
  · subst cs
    exact List.all_eq_true.1 rfl
  split at h
  · subst cs
    exact List.all_eq_true.1 rfl
  rw [hdate, if_neg Bool.false_ne_true] at h
  split at h
  · exact isNumeral_of_integer? ‹_›
  · split at h
    · exact isNumeral_of_isFloat ‹_›
    · cases h

theorem wordValue?_mono (he : e ≤ e') {v : Data} (h : wordValue? e cs = some v) : wordValue? e' cs = some v := by
  by_cases hdate : isDateTime e cs = true
  · unfold wordValue? at h ⊢
    rw [if_pos hdate] at h
    rwa [if_pos (isDateTime_mono he hdate)]
  · have hdate' : ¬isDateTime e' cs = true := by
      rw [Bool.not_eq_true] at hdate
      intro hdate'
      exact absurd (isNumeral_of_wordValue? h hdate ':' (colon_mem_of_isDateTime hdate' hdate)) (by decide)
    unfold wordValue? at h ⊢
    rw [if_neg hdate] at h
    rw [if_neg hdate']
    split at h
    · rename_i htrue
      rwa [if_pos htrue]
    rename_i htrue
    rw [if_neg htrue]
    split at h
    · rename_i hfalse
      rwa [if_pos hfalse]
    rename_i hfalse
    rw [if_neg hfalse]
    split at h
    · split at h
      · rwa [if_pos (holds_mono he ‹_›)]
      · cases h
    · split at h
      · rwa [if_pos (isFloat_mono he ‹_›)]
      · cases h

/-! ## Values -/

theorem scalarValue_mono (he : e ≤ e') {r : Data × List Char} (h : scalarValue e cs = some r) :
    scalarValue e' cs = some r := by
  unfold scalarValue at h ⊢
  split at h
  · obtain ⟨t, ht, rfl⟩ := Option.map_eq_some_iff.1 h
    rw [text?_mono he ht, Option.map_some]
  · obtain ⟨t, ht, rfl⟩ := Option.map_eq_some_iff.1 h
    rw [text?_mono he ht, Option.map_some]
  · obtain ⟨v, hv, rfl⟩ := Option.map_eq_some_iff.1 h
    rw [wordValue?_mono he hv, Option.map_some]

/-- The text goes on with something that is no blank, no line end and no comment. -/
def Starts (cs : List Char) : Prop := ∃ c after, cs = c :: after ∧ startsValue c = true

theorem Starts.skipSpace_eq (h : Starts cs) : skipSpace cs = cs := by
  obtain ⟨c, after, rfl, hc⟩ := h
  exact skipSpace_start hc after

/-- The next word is empty or starts where the text starts. -/
theorem nextWord_head (cs : List Char) :
    (nextWord cs).1 = [] ∨ ∃ c after word, cs = c :: after ∧ endsWord c = false ∧ (nextWord cs).1 = c :: word := by
  have hdate : date? [] = none := rfl
  cases cs with
  | nil => exact .inl rfl
  | cons c after =>
    cases hc : endsWord c with
    | true => exact .inl (by simp [nextWord, hc, hdate])
    | false =>
      refine .inr ⟨c, after, ?_⟩
      have hfirst : (c :: after).takeWhile (!endsWord ·) = c :: after.takeWhile (!endsWord ·) := by simp [hc]
      unfold nextWord
      rw [hfirst]
      dsimp only
      split
      · split
        · exact ⟨_, rfl, hc, rfl⟩
        · exact ⟨_, rfl, hc, rfl⟩
      · exact ⟨_, rfl, hc, rfl⟩

theorem startsValue_of_not_endsWord {c : Char} (hc : endsWord c = false) : startsValue c = true := by
  simp only [endsWord, Bool.or_eq_false_iff, beq_eq_false_iff_ne] at hc
  simp [startsValue, isSpace, hc]

/-- A value without brackets starts with a character that opens none. -/
theorem scalarValue_head {r : Data × List Char} (h : scalarValue e cs = some r) :
    ∃ c after, cs = c :: after ∧ startsValue c = true ∧ c ≠ '[' ∧ c ≠ '\x7b' := by
  unfold scalarValue at h
  split at h
  · exact ⟨'"', _, rfl, by decide⟩
  · exact ⟨'\'', _, rfl, by decide⟩
  · obtain ⟨v, hv, -⟩ := Option.map_eq_some_iff.1 h
    rcases nextWord_head cs with hword | ⟨c, after, word, rfl, hc, hword⟩
    · rw [hword] at hv
      cases hv
    · have hnumeral : isNumeral c = true := by
        rw [hword] at hv
        cases hdate : isDateTime e (c :: word) with
        | true => exact isNumeral_of_isDigit (isDigit_of_isDateTime hdate)
        | false => exact isNumeral_of_wordValue? hv hdate c List.mem_cons_self
      simp only [isNumeral, Bool.and_eq_true, bne_iff_ne] at hnumeral
      exact ⟨c, after, rfl, startsValue_of_not_endsWord hc, hnumeral.1.2, hnumeral.2⟩

theorem value_head {depth : Nat} {r : Data × List Char} (h : value e depth cs = some r) : Starts cs := by
  have hscalar (h : scalarValue e cs = some r) : Starts cs := by
    obtain ⟨c, after, hcs, hc, -⟩ := scalarValue_head h
    exact ⟨c, after, hcs, hc⟩
  cases depth with
  | zero => exact hscalar h
  | succ depth =>
    unfold value at h
    split at h
    · exact ⟨'[', _, rfl, by decide⟩
    · exact ⟨'\x7b', _, rfl, by decide⟩
    · exact hscalar h

theorem keyPath?_head {r : List String × List Char} (h : keyPath? e cs = some r) : Starts (skipSpace cs) := by
  unfold keyPath? at h
  cases hn : e.nesting with
  | zero =>
    rw [hn] at h
    cases h
  | succ n =>
    rw [hn, keyPathFrom, Option.bind_eq_bind, Option.bind_eq_some_iff] at h
    obtain ⟨key, hkey, -⟩ := h
    unfold key? at hkey
    split at hkey
    · rename_i hquote
      exact ⟨_, _, hquote, by decide⟩
    · rename_i hquote
      exact ⟨_, _, hquote, by decide⟩
    · cases hcs : skipSpace cs with
      | nil => simp [hcs] at hkey
      | cons c after =>
        refine ⟨c, after, rfl, ?_⟩
        by_contra hc
        have hbare : isBareKey c = false := by
          rw [← Bool.not_eq_true]
          exact fun hbare => hc (startsValue_of_isBareKey hbare)
        simp [hcs, hbare] at hkey

/-- Where no line end and no comment is in the way, spaces are all that is skipped. -/
theorem skipGap_of_starts (h : Starts (skipSpace cs)) : skipGap false cs = some (skipSpace cs) := by
  induction cs with
  | nil => rfl
  | cons c cs ih =>
    by_cases hc : isSpace c = true
    · have hskip : skipSpace (c :: cs) = skipSpace cs := List.dropWhile_cons_of_pos hc
      rw [hskip] at h ⊢
      rw [← ih h]
      have hne : c ≠ '\n' ∧ c ≠ '\r' := by
        constructor
        · rintro rfl
          exact absurd hc (by decide)
        · rintro rfl
          exact absurd hc (by decide)
      rw [skipGap]
      · simp [hc]
      · exact fun h => hne.1 h
      · exact fun _ h => absurd h hne.2
    · have hskip : skipSpace (c :: cs) = c :: cs := List.dropWhile_cons_of_neg hc
      rw [hskip] at h ⊢
      obtain ⟨_, _, heq, hstart⟩ := h
      cases heq
      exact skipGap_start hstart cs

/-- Both editions skip the same in an inline table, because what follows starts with no line end and no comment. -/
theorem skipInline_mono (he : e ≤ e') {cs' : List Char} (hstarts : Starts (skipSpace cs'))
    (h : skipInline e cs = some cs') : skipInline e' cs = some cs' := by
  unfold skipInline at h ⊢
  split at h
  · rename_i hopen
    rwa [if_pos (he.openTables hopen)]
  · cases h
    split
    · rw [skipSpace, skipSpace, List.dropWhile_idempotent] at hstarts
      exact skipGap_of_starts hstarts
    · rfl

section Brackets

variable {read read' : List Char → Option (Data × List Char)}
  (hread : ∀ cs r, read cs = some r → Starts cs ∧ read' cs = some r)

include hread

theorem arrayItems_mono {n : Nat} {r : List Data × List Char} (h : arrayItems read n cs = some r) :
    arrayItems read' n cs = some r := by
  induction n generalizing cs r with
  | zero => cases h
  | succ n ih =>
    simp only [arrayItems, Option.bind_eq_bind, Option.bind_eq_some_iff] at h ⊢
    obtain ⟨cs₁, hcs₁, h⟩ := h
    refine ⟨cs₁, hcs₁, ?_⟩
    split at h
    · exact h
    · simp only [Option.bind_eq_some_iff] at h ⊢
      obtain ⟨v, hv, cs₂, hcs₂, h⟩ := h
      refine ⟨v, (hread _ _ hv).2, cs₂, hcs₂, ?_⟩
      split at h
      · simp only [Option.bind_eq_some_iff] at h ⊢
        obtain ⟨vs, hvs, h⟩ := h
        exact ⟨vs, ih hvs, h⟩
      · exact h
      · cases h

theorem keyValue_mono (he : e ≤ e') {skip skip' : List Char → Option (List Char)}
    (hskip : ∀ cs cs', Starts (skipSpace cs') → skip cs = some cs' → skip' cs = some cs')
    {r : (List String × Data) × List Char} (h : keyValue e skip read cs = some r) :
    keyValue e' skip' read' cs = some r := by
  simp only [keyValue, Option.bind_eq_bind, Option.bind_eq_some_iff] at h ⊢
  obtain ⟨path, hpath, cs₁, hcs₁, h⟩ := h
  split at h
  · simp only [Option.bind_eq_some_iff] at h
    obtain ⟨cs₂, hcs₂, v, hv, h⟩ := h
    obtain ⟨hstarts, hv'⟩ := hread _ _ hv
    rw [← hstarts.skipSpace_eq] at hstarts
    refine ⟨path, keyPath?_mono he hpath, _, hskip _ _ ⟨'=', _, rfl, by decide⟩ hcs₁, ?_⟩
    simp only [Option.bind_eq_some_iff]
    exact ⟨cs₂, hskip _ _ hstarts hcs₂, v, hv', h⟩
  · cases h

omit hread in
theorem inlineEntries_head {n : Nat} {entries : Entries} {r : Entries × List Char}
    (h : inlineEntries e read n entries cs = some r) : Starts (skipSpace cs) := by
  cases n with
  | zero => cases h
  | succ n =>
    simp only [inlineEntries, keyValue, Option.bind_eq_bind, Option.bind_eq_some_iff] at h
    obtain ⟨-, ⟨path, hpath, -⟩, -⟩ := h
    exact keyPath?_head hpath

theorem inlineEntries_mono (he : e ≤ e') {n : Nat} {entries : Entries} {r : Entries × List Char}
    (h : inlineEntries e read n entries cs = some r) : inlineEntries e' read' n entries cs = some r := by
  induction n generalizing entries cs r with
  | zero => cases h
  | succ n ih =>
    simp only [inlineEntries, Option.bind_eq_bind, Option.bind_eq_some_iff] at h ⊢
    obtain ⟨v, hv, added, hadded, cs₂, hcs₂, h⟩ := h
    have hv' := keyValue_mono hread he (fun _ _ => skipInline_mono he) hv
    split at h
    · exact ⟨v, hv', added, hadded, _, skipInline_mono he ⟨'\x7d', _, rfl, by decide⟩ hcs₂, h⟩
    · simp only [Option.bind_eq_some_iff] at h
      obtain ⟨cs₃, hcs₃, h⟩ := h
      refine ⟨v, hv', added, hadded, _, skipInline_mono he ⟨',', _, rfl, by decide⟩ hcs₂, ?_⟩
      simp only [Option.bind_eq_some_iff]
      split at h
      · split at h
        · rename_i hopen
          refine ⟨_, skipInline_mono he ⟨'\x7d', _, rfl, by decide⟩ hcs₃, ?_⟩
          simpa [he.openTables hopen] using h
        · cases h
      · rename_i hne
        refine ⟨cs₃, skipInline_mono he (inlineEntries_head h) hcs₃, ?_⟩
        split
        · exact absurd rfl (hne _)
        · exact ih h
    · cases h

theorem inlineTable_mono (he : e ≤ e') {r : Data × List Char} (h : inlineTable e read cs = some r) :
    inlineTable e' read' cs = some r := by
  simp only [inlineTable, Option.bind_eq_bind, Option.bind_eq_some_iff] at h ⊢
  obtain ⟨cs₁, hcs₁, h⟩ := h
  split at h
  · exact ⟨_, skipInline_mono he ⟨'\x7d', _, rfl, by decide⟩ hcs₁, h⟩
  · rename_i hne
    simp only [Option.bind_eq_some_iff] at h
    obtain ⟨entries, hentries, h⟩ := h
    refine ⟨cs₁, skipInline_mono he (inlineEntries_head hentries) hcs₁, ?_⟩
    split
    · exact absurd rfl (hne _)
    · simp only [Option.bind_eq_some_iff]
      exact ⟨entries, inlineEntries_mono hread he hentries, h⟩

end Brackets

/-- A value without brackets is read by a wider edition at every depth. -/
theorem value_of_scalarValue (he : e ≤ e') {r : Data × List Char} (h : scalarValue e cs = some r) (depth : Nat) :
    value e' depth cs = some r := by
  obtain ⟨c, after, rfl, -, harray, htable⟩ := scalarValue_head h
  rw [value_eq_scalarValue harray htable]
  exact scalarValue_mono he h

theorem value_mono (he : e ≤ e') {depth depth' : Nat} (hdepth : depth ≤ depth') {r : Data × List Char}
    (h : value e depth cs = some r) : value e' depth' cs = some r := by
  induction depth generalizing depth' cs r with
  | zero => exact value_of_scalarValue he h depth'
  | succ depth ih =>
    obtain ⟨depth', rfl⟩ := Nat.exists_eq_succ_of_ne_zero (Nat.ne_of_gt (Nat.lt_of_lt_of_le depth.succ_pos hdepth))
    have hread (cs : List Char) (r : Data × List Char) (h : value e depth cs = some r) :
        Starts cs ∧ value e' depth' cs = some r := ⟨value_head h, ih (Nat.le_of_succ_le_succ hdepth) h⟩
    unfold value at h
    split at h
    · obtain ⟨items, hitems, rfl⟩ := Option.map_eq_some_iff.1 h
      rw [value, arrayItems_mono hread hitems, Option.map_some]
    · exact inlineTable_mono hread he h
    · exact value_of_scalarValue he h _

/-! ## Documents -/

theorem expression_mono (he : e ≤ e') {d : Draft} {r : Draft × List Char} (h : expression e d cs = some r) :
    expression e' d cs = some r := by
  unfold expression at h ⊢
  split at h
  · simp only [Option.bind_eq_bind, Option.bind_eq_some_iff] at h ⊢
    obtain ⟨path, hpath, h⟩ := h
    exact ⟨path, keyPath?_mono he hpath, h⟩
  · simp only [Option.bind_eq_bind, Option.bind_eq_some_iff] at h ⊢
    obtain ⟨path, hpath, h⟩ := h
    exact ⟨path, keyPath?_mono he hpath, h⟩
  · simp only [Option.bind_eq_bind, Option.bind_eq_some_iff] at h ⊢
    obtain ⟨v, hv, h⟩ := h
    have hread (cs : List Char) (r : Data × List Char) (h : value e e.nesting cs = some r) :
        Starts cs ∧ value e' e'.nesting cs = some r := ⟨value_head h, value_mono he he.nesting h⟩
    exact ⟨v, keyValue_mono hread he (fun _ _ _ h => h) hv, h⟩

theorem linesFrom_mono (he : e ≤ e') {n : Nat} {d : Draft} {root : Entries} (h : linesFrom e n d cs = some root) :
    linesFrom e' n d cs = some root := by
  induction n generalizing d cs with
  | zero => cases h
  | succ n ih =>
    simp only [linesFrom, Option.bind_eq_bind, Option.bind_eq_some_iff] at h ⊢
    obtain ⟨cs₁, hcs₁, h⟩ := h
    refine ⟨cs₁, hcs₁, ?_⟩
    split at h
    · exact h
    · simp only [Option.bind_eq_some_iff] at h ⊢
      obtain ⟨d', hd', h⟩ := h
      exact ⟨d', expression_mono he hd', ih h⟩

/-- What an edition reads, a wider one reads as the same data. -/
theorem parse_mono (he : e ≤ e') {s : String} {entries : List (String × Data)} (h : parse e s = some entries) :
    parse e' s = some entries := by
  obtain ⟨root, hroot, rfl⟩ := Option.map_eq_some_iff.1 h
  rw [parse, linesFrom_mono he hroot, Option.map_some]

/-- What both editions allow, they read alike. -/
theorem parse_alike {s : String} (h : (parse .common s).isSome = true) : parse .first s = parse .second s := by
  obtain ⟨entries, hentries⟩ := Option.isSome_iff_exists.1 h
  rw [parse_mono Edition.common_le_first hentries, parse_mono Edition.common_le_second hentries]

end SyntaxView.Toml
