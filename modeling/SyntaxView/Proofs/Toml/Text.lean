import SyntaxView.Proofs.Json.Text
import SyntaxView.Toml.Writer

/-!
# Reading quoted texts back

A text is written in the first form that fits, and whichever that is, it is read as the text (`text?_writeChars`), by
readers of both editions. Quotes of a text over several lines are counted: the reader keeps up to two of them in
suspense, because three in a row would end the text. Escaped texts keep this by escaping the third
(`quotedFrom_escapeFrom`), texts that stand as they are by having no three in a row (`quotedFrom_raw`).
-/

namespace SyntaxView.Toml

variable {e : Edition} {f : QuoteForm}

/-! ## Quotes -/

/-- What follows a text does not go on with its quote. -/
def Ends (q : Char) (rest : List Char) : Prop := rest.head? ≠ some q

/-- The quotes after a text. -/
def closing (f : QuoteForm) : List Char := List.replicate (if f.lines then 3 else 1) f.quote

/-- Quotes in suspense belong to the text once another character follows. -/
theorem quotedFrom_flush {n : Nat} (hn : n < 3) {c : Char} (hc : c ≠ f.quote) (acc cs : List Char) :
    quotedFrom e f (.plain n) acc (c :: cs) =
      quotedFrom e f (.plain 0) (List.replicate n f.quote ++ acc) (c :: cs) := by
  have hn' : ¬ 3 ≤ n := Nat.not_le.mpr hn
  rw [quotedFrom.eq_def, quotedFrom.eq_def e f (.plain 0)]
  simp [hc, hn']

/-- A quote over several lines is kept in suspense. -/
theorem quotedFrom_quote (hf : f.lines = true) {n : Nat} (hn : n < 4) (acc cs : List Char) :
    quotedFrom e f (.plain n) acc (f.quote :: cs) = quotedFrom e f (.plain (n + 1)) acc cs := by
  have hn' : n ≠ 4 := Nat.ne_of_lt hn
  rw [quotedFrom.eq_def]
  simp [hf, hn']

/-- The closing quotes end a text, and those in suspense belong to it. -/
theorem quotedFrom_closing {n : Nat} (hn : n ≤ 2) (hone : f.lines = false → n = 0) {rest : List Char}
    (hrest : Ends f.quote rest) (acc : List Char) :
    quotedFrom e f (.plain n) acc (closing f ++ rest) = some (closeText f n acc, rest) := by
  cases hf : f.lines with
  | false =>
    obtain rfl := hone hf
    simp [closing, hf, quotedFrom]
  | true =>
    have hclosing : closing f = [f.quote, f.quote, f.quote] := by simp [closing, hf]
    rw [hclosing, List.cons_append, List.cons_append, List.cons_append, List.nil_append, quotedFrom_quote hf (by omega),
      quotedFrom_quote hf (by omega)]
    by_cases htwo : n = 2
    · subst htwo
      rw [quotedFrom.eq_def]
      simp [hf]
    · rw [quotedFrom_quote hf (by omega)]
      have hthree : 3 ≤ n + 1 + 1 + 1 := by omega
      cases rest with
      | nil =>
        rw [quotedFrom.eq_def]
        simp [hf]
      | cons c rest =>
        have hc : c ≠ f.quote := fun h => hrest (congrArg some h)
        rw [quotedFrom.eq_def]
        simp [hc]

/-! ## Escapes -/

theorem hexDigit?_upper : ∀ d < 16, Json.hexDigit? (Nat.digitChar d).toUpper = some d := by decide

/-- The digits of a character lead back to it. -/
theorem quotedFrom_hex {n : Nat} (hn : n < 0x80) (acc cs : List Char) :
    quotedFrom e f (.hex 4 0) acc (upperHex4 n ++ cs) = quotedFrom e f (.plain 0) (Char.ofNat n :: acc) cs := by
  have h₁ : Json.hexDigit? (Nat.digitChar (n / 4096 % 16)).toUpper = some (n / 4096 % 16) :=
    hexDigit?_upper _ (by omega)
  have h₂ : Json.hexDigit? (Nat.digitChar (n / 256 % 16)).toUpper = some (n / 256 % 16) := hexDigit?_upper _ (by omega)
  have h₃ : Json.hexDigit? (Nat.digitChar (n / 16 % 16)).toUpper = some (n / 16 % 16) := hexDigit?_upper _ (by omega)
  have h₄ : Json.hexDigit? (Nat.digitChar (n % 16)).toUpper = some (n % 16) := hexDigit?_upper _ (by omega)
  have hv : ((n / 4096 % 16 * 16 + n / 256 % 16) * 16 + n / 16 % 16) * 16 + n % 16 = n := by omega
  have hscalar : n < 0xD800 := by omega
  simp [upperHex4, Json.hex4, quotedFrom, h₁, h₂, h₃, h₄, hv, scalar?, hscalar]

/-- The form with escapes has double quotes. -/
structure IsBasic (f : QuoteForm) : Prop where
  quote : f.quote = '"'
  escapes : f.escapes = true

theorem quotedFrom_backslash (hf : IsBasic f) (acc cs : List Char) :
    quotedFrom e f (.plain 0) acc ('\\' :: cs) = quotedFrom e f .escape acc cs := by
  simp [quotedFrom, hf.quote, hf.escapes]

/-- A letter that stands for a character after a backslash. -/
theorem quotedFrom_escape (hf : IsBasic f) {c d : Char} (hd : escaped? e d = some c) (acc cs : List Char) :
    quotedFrom e f (.plain 0) acc ('\\' :: d :: cs) = quotedFrom e f (.plain 0) (c :: acc) cs := by
  rw [quotedFrom_backslash hf, quotedFrom.eq_def e f .escape]
  simp [hd]

/-- A character that stands for itself. -/
theorem quotedFrom_plain {c : Char} (hq : c ≠ f.quote) (hescape : f.escapes = true → c ≠ '\\')
    (hplain : isPlain c = true) (acc cs : List Char) :
    quotedFrom e f (.plain 0) acc (c :: cs) = quotedFrom e f (.plain 0) (c :: acc) cs := by
  have hline : c ≠ '\n' := by
    rintro rfl
    exact absurd hplain (by decide)
  have hreturn : c ≠ '\r' := by
    rintro rfl
    exact absurd hplain (by decide)
  have hslash : ¬ (c = '\\' ∧ f.escapes = true) := fun h => hescape h.2 h.1
  rw [quotedFrom.eq_def]
  simp [hq, hline, hreturn, hplain, hslash]

theorem quotedFrom_newline (hlines : f.lines = true) (hq : f.quote ≠ '\n') (acc cs : List Char) :
    quotedFrom e f (.plain 0) acc ('\n' :: cs) = quotedFrom e f (.plain 0) ('\n' :: acc) cs := by
  rw [quotedFrom.eq_def]
  simp [hlines, Ne.symm hq]

theorem isPlain_of_not_control {c : Char} (hcontrol : isControl c = false) (hline : c ≠ '\n') : isPlain c = true := by
  by_cases htab : c = '\t'
  · subst htab
    rfl
  · simp [isControl, htab, hline] at hcontrol
    simp [isPlain, htab, hcontrol]

/-- A character written with escapes is read as itself. -/
theorem quotedFrom_escapeChar (hf : IsBasic f) {c : Char} (hc : c ≠ '"') (acc cs : List Char) :
    quotedFrom e f (.plain 0) acc (escapeChar f c ++ cs) = quotedFrom e f (.plain 0) (c :: acc) cs := by
  unfold escapeChar
  split
  · rename_i h
    obtain rfl : c = Char.ofNat 8 := by rw [← h, Char.ofNat_toNat]
    exact quotedFrom_escape hf (by simp [escaped?]) acc cs
  split
  · subst_vars
    exact quotedFrom_escape hf (by simp [escaped?]) acc cs
  split
  · rename_i h
    obtain rfl : c = Char.ofNat 12 := by rw [← h, Char.ofNat_toNat]
    exact quotedFrom_escape hf (by simp [escaped?]) acc cs
  split
  · subst_vars
    exact quotedFrom_escape hf (by simp [escaped?]) acc cs
  split
  · subst_vars
    exact quotedFrom_escape hf (by simp [escaped?]) acc cs
  split
  · subst_vars
    split
    · rename_i hlines
      exact quotedFrom_newline hlines (by rw [hf.quote]; decide) acc cs
    · exact quotedFrom_escape hf (by simp [escaped?]) acc cs
  split
  · rename_i hcontrol
    have hsmall : c.toNat < 0x80 := by
      simp [isControl] at hcontrol
      omega
    have hu : quotedFrom e f (.plain 0) acc ('\\' :: 'u' :: upperHex4 c.toNat ++ cs) =
        quotedFrom e f (.hex 4 0) acc (upperHex4 c.toNat ++ cs) := by
      rw [List.cons_append, List.cons_append, quotedFrom_backslash hf, quotedFrom.eq_def e f .escape]
      simp [escaped?, escapeDigits?]
    rw [hu, quotedFrom_hex hsmall, Char.ofNat_toNat]
  · rename_i hslash hline hcontrol
    rw [Bool.not_eq_true] at hcontrol
    exact quotedFrom_plain (by rw [hf.quote]; exact hc) (fun _ => hslash) (isPlain_of_not_control hcontrol hline) acc cs

/-- What a character is written as starts with no quote, and with no line end unless it is one. -/
theorem head_escapeChar {c : Char} (hc : c ≠ '"') :
    ∃ d ds, escapeChar f c = d :: ds ∧ d ≠ '"' ∧ d ≠ '\r' ∧ (c ≠ '\n' → d ≠ '\n') := by
  unfold escapeChar
  repeat' split
  case isFalse.isFalse.isFalse.isFalse.isFalse.isFalse.isFalse => exact ⟨c, [], rfl, hc, by assumption, id⟩
  case isFalse.isFalse.isFalse.isFalse.isFalse.isTrue.isTrue h _ =>
    exact ⟨_, _, rfl, by decide, by decide, fun hne => absurd h hne⟩
  all_goals exact ⟨_, _, rfl, by decide, by decide, fun _ => by decide⟩

/-- A text written with escapes is read as the text. -/
theorem quotedFrom_escapeFrom (hf : IsBasic f) {rest : List Char} (hrest : Ends '"' rest) :
    ∀ (cs : List Char) (n : Nat) (acc : List Char), n ≤ 2 → (f.lines = false → n = 0) →
      quotedFrom e f (.plain n) acc (escapeFrom f n cs ++ (closing f ++ rest)) =
        some (String.ofList (acc.reverse ++ (List.replicate n '"' ++ cs)), rest)
  | [], n, acc, hn, hone => by
    rw [escapeFrom, List.nil_append, quotedFrom_closing hn hone (by rw [hf.quote]; exact hrest)]
    simp [closeText, hf.quote]
  | c :: cs, n, acc, hn, hone => by
    rw [escapeFrom]
    split
    · rename_i hc
      subst hc
      split
      · -- Fewer than two quotes are in suspense: this one joins them.
        rename_i hfew
        have hquote := quotedFrom_quote (e := e) hfew.1 (n := n) (by omega) acc (escapeFrom f (n + 1) cs ++ (closing f ++ rest))
        rw [hf.quote] at hquote
        rw [List.cons_append, hquote, quotedFrom_escapeFrom hf hrest cs (n + 1) acc (by omega) (by simp [hfew.1])]
        simp [List.replicate_succ']
      · have hescaped : escaped? e '"' = some '"' := by simp [escaped?]
        rw [List.cons_append, List.cons_append, quotedFrom_flush (by omega) (by rw [hf.quote]; decide),
          quotedFrom_escape hf hescaped, quotedFrom_escapeFrom hf hrest cs 0 _ (by omega) (fun _ => rfl)]
        simp [hf.quote]
    · rename_i hc
      obtain ⟨d, ds, hd, hne, -⟩ := head_escapeChar (f := f) hc
      have hflush := quotedFrom_flush (e := e) (f := f) (n := n) (by omega) (c := d) (by rw [hf.quote]; exact hne) acc
        (ds ++ (escapeFrom f 0 cs ++ (closing f ++ rest)))
      rw [← List.cons_append, ← hd] at hflush
      rw [List.append_assoc, hflush, quotedFrom_escapeChar hf hc,
        quotedFrom_escapeFrom hf hrest cs 0 _ (by omega) (fun _ => rfl)]
      simp [hf.quote]

/-! ## Texts as they stand -/

/-- The form without escapes has single quotes. -/
structure IsLiteral (f : QuoteForm) : Prop where
  quote : f.quote = '\''
  escapes : f.escapes = false

/-- The character may stand in a text of the form as it is. -/
def MayStand (f : QuoteForm) (c : Char) : Prop := isPlain c = true ∨ c = '\n' ∧ f.lines = true

theorem quotedFrom_stand (hf : IsLiteral f) {c : Char} (hq : c ≠ f.quote) (hc : MayStand f c) (acc cs : List Char) :
    quotedFrom e f (.plain 0) acc (c :: cs) = quotedFrom e f (.plain 0) (c :: acc) cs := by
  rcases hc with hplain | ⟨rfl, hlines⟩
  · exact quotedFrom_plain hq (by simp [hf.escapes]) hplain acc cs
  · exact quotedFrom_newline hlines (Ne.symm hq) acc cs

/-- A text that stands as it is, with fewer than three quotes in a row and on one line with none, is read as the text. -/
theorem quotedFrom_raw (hf : IsLiteral f) {rest : List Char} (hrest : Ends '\'' rest) :
    ∀ (cs : List Char) (n : Nat) (acc : List Char), hasRun '\'' 3 n cs = false → (∀ c ∈ cs, MayStand f c) →
      (f.lines = false → n = 0 ∧ '\'' ∉ cs) →
      quotedFrom e f (.plain n) acc (cs ++ (closing f ++ rest)) =
        some (String.ofList (acc.reverse ++ (List.replicate n '\'' ++ cs)), rest)
  | [], n, acc, hrun, _, hone => by
    have hn : n < 3 := by simpa [hasRun] using hrun
    rw [List.nil_append, quotedFrom_closing (by omega) (fun h => (hone h).1) (by rw [hf.quote]; exact hrest)]
    simp [closeText, hf.quote]
  | c :: cs, n, acc, hrun, hstand, hone => by
    simp only [hasRun, Bool.or_eq_false_iff, decide_eq_false_iff_not] at hrun
    obtain ⟨hn, hrun⟩ := hrun
    have hstand' : ∀ d ∈ cs, MayStand f d := fun d hd => hstand d (List.mem_cons_of_mem c hd)
    by_cases hc : c = '\''
    · subst hc
      rw [if_pos rfl] at hrun
      have hlines : f.lines = true := by
        cases hlines : f.lines with
        | true => rfl
        | false => exact absurd List.mem_cons_self (hone hlines).2
      have hquote := quotedFrom_quote (e := e) hlines (n := n) (by omega) acc (cs ++ (closing f ++ rest))
      rw [hf.quote] at hquote
      rw [List.cons_append, hquote, quotedFrom_raw hf hrest cs (n + 1) acc hrun hstand' (by simp [hlines])]
      simp [List.replicate_succ']
    · rw [if_neg hc] at hrun
      have hq : c ≠ f.quote := by
        rw [hf.quote]
        exact hc
      rw [List.cons_append, quotedFrom_flush (by omega) hq, quotedFrom_stand hf hq (hstand c List.mem_cons_self),
        quotedFrom_raw hf hrest cs 0 _ hrun hstand' fun h => ⟨rfl, fun hd => (hone h).2 (List.mem_cons_of_mem c hd)⟩]
      simp [hf.quote]

/-! ## Texts -/

theorem hasRun_eq_false {q : Char} {run : Nat} (hrun : 0 < run) : ∀ {cs : List Char}, q ∉ cs →
    hasRun q run 0 cs = false
  | [], _ => by
    simp [hasRun]
    omega
  | c :: cs, h => by
    rw [hasRun, if_neg (Ne.symm (List.ne_of_not_mem_cons h)), hasRun_eq_false hrun (List.not_mem_of_not_mem_cons h)]
    simp
    omega

/-- What a form promises of the text that is written in it. -/
inductive Fits (cs : List Char) : QuoteForm → Prop
  | basic : Fits cs basic
  | basicLines : Fits cs basicLines
  | literal (filled : cs ≠ []) (quotes : '\'' ∉ cs) (each : ∀ c ∈ cs, isPlain c = true) : Fits cs literal
  | literalLines (run : hasRun '\'' 3 0 cs = false) (each : ∀ c ∈ cs, isControl c = false) : Fits cs literalLines

theorem fits_formOf (cs : List Char) : Fits cs (formOf cs) := by
  unfold formOf
  dsimp only
  split
  · exact .basic
  rename_i hbasic
  split
  · rename_i hliteral
    simp only [Bool.and_eq_true, Bool.not_eq_true', List.contains_eq_mem, decide_eq_false_iff_not, List.any_eq_false,
      Bool.not_eq_true] at hliteral
    obtain ⟨⟨hquotes, hbroken⟩, hcontrol⟩ := hliteral
    refine .literal ?_ hquotes fun c hc => isPlain_of_not_control (hcontrol c hc) fun h => hbroken (h ▸ hc)
    rintro rfl
    exact hbasic (by decide)
  split
  · exact .basicLines
  split
  · rename_i hlines
    simp only [Bool.and_eq_true, Bool.not_eq_true', List.any_eq_false, Bool.not_eq_true] at hlines
    exact .literalLines hlines.2 hlines.1
  split
  · exact .basicLines
  · exact .basic

theorem newline?_cons {c : Char} (hline : c ≠ '\n') (hreturn : c ≠ '\r') (cs : List Char) : newline? (c :: cs) = none := by
  unfold newline?
  split
  · rename_i h
    exact absurd (List.cons.inj h).1 hline
  · rename_i h
    exact absurd (List.cons.inj h).1 hreturn
  · rfl

/-- The text in a form, with its quotes. -/
def writeIn (f : QuoteForm) (cs : List Char) : List Char :=
  closing f ++ (if f.lines ∧ cs.contains '\n' then ['\n'] else []) ++ (if f.escapes then escapeFrom f 0 cs else cs) ++
    closing f

/-- A text with escapes starts with no quote that ends it at once, and with no line end unless the text has one. -/
theorem head_escapeFrom (f : QuoteForm) (cs rest : List Char) : cs = [] ∧ escapeFrom f 0 cs ++ rest = rest ∨
    ∃ d ds, escapeFrom f 0 cs ++ rest = d :: ds ∧ (f.lines = false → d ≠ '"') ∧ d ≠ '\r' ∧
      ('\n' ∉ cs → d ≠ '\n') := by
  cases cs with
  | nil => exact .inl ⟨rfl, rfl⟩
  | cons c cs =>
    right
    rw [escapeFrom]
    split
    · split
      · rename_i hlines
        exact ⟨_, _, rfl, by simp [hlines.1], by decide, fun _ => by decide⟩
      · exact ⟨_, _, rfl, fun _ => by decide, by decide, fun _ => by decide⟩
    · rename_i hc
      obtain ⟨d, ds, hd, hquote, hreturn, hline⟩ := head_escapeChar (f := f) hc
      rw [hd]
      exact ⟨d, _, rfl, fun _ => hquote, hreturn, fun hcs => hline (Ne.symm (List.ne_of_not_mem_cons hcs))⟩

/-- A line end is put before a text over several lines that has one, and taken off again. -/
theorem quotedLines_start (hlines : f.lines = true) {cs body : List Char}
    (hbody : '\n' ∉ cs → ∃ d ds, body = d :: ds ∧ d ≠ '\n' ∧ d ≠ '\r') :
    quotedLines e f ((if f.lines ∧ cs.contains '\n' then ['\n'] else []) ++ body) = quoted e f body := by
  by_cases hbroken : '\n' ∈ cs
  · rw [if_pos ⟨hlines, by simpa using hbroken⟩]
    rfl
  · obtain ⟨d, ds, rfl, hline, hreturn⟩ := hbody hbroken
    rw [if_neg (by simp [hbroken]), List.nil_append, quotedLines, newline?_cons hline hreturn]
    rfl

/-! ## The four forms -/

section Forms

variable {cs rest : List Char}

theorem text?_basic (hdouble : Ends '"' rest) : text? e (writeIn basic cs ++ rest) = some (String.ofList cs, rest) := by
  have hf : IsBasic basic := ⟨rfl, rfl⟩
  have hwritten : writeIn basic cs ++ rest = '"' :: (escapeFrom basic 0 cs ++ (closing basic ++ rest)) := by
    simp [writeIn, closing, basic]
  rw [hwritten, text?.eq_2, quoted, quotedFrom_escapeFrom hf hdouble cs 0 [] (by decide) fun _ => rfl]
  · simp
  · intro r hr
    rcases head_escapeFrom basic cs (closing basic ++ rest) with ⟨-, hempty⟩ | ⟨d, ds, hhead, hquote, -⟩
    · -- Without a character between them, the quotes are the two of the text.
      rw [hempty] at hr
      have hrest : rest = '"' :: r := (List.cons.inj hr).2
      exact hdouble (congrArg List.head? hrest)
    · rw [hhead] at hr
      exact hquote rfl (List.cons.inj hr).1

theorem text?_basicLines (hdouble : Ends '"' rest) :
    text? e (writeIn basicLines cs ++ rest) = some (String.ofList cs, rest) := by
  have hf : IsBasic basicLines := ⟨rfl, rfl⟩
  have hwritten : writeIn basicLines cs ++ rest = '"' :: '"' :: '"' ::
      ((if basicLines.lines ∧ cs.contains '\n' then ['\n'] else []) ++
        (escapeFrom basicLines 0 cs ++ (closing basicLines ++ rest))) := by
    simp [writeIn, closing, basicLines]
  rw [hwritten, text?.eq_1, quotedLines_start rfl, quoted,
    quotedFrom_escapeFrom hf hdouble cs 0 [] (by decide) fun _ => rfl]
  · simp
  · intro hbroken
    have hhead := head_escapeFrom basicLines cs (closing basicLines ++ rest)
    rcases hhead with ⟨-, hempty⟩ | ⟨d, ds, hhead, -, hreturn, hline⟩
    · exact ⟨_, _, hempty, by decide, by decide⟩
    · exact ⟨d, ds, hhead, hline hbroken, hreturn⟩

theorem text?_literal (hsingle : Ends '\'' rest) (hfilled : cs ≠ []) (hquotes : '\'' ∉ cs)
    (heach : ∀ c ∈ cs, isPlain c = true) : text? e (writeIn literal cs ++ rest) = some (String.ofList cs, rest) := by
  have hf : IsLiteral literal := ⟨rfl, rfl⟩
  have hwritten : writeIn literal cs ++ rest = '\'' :: (cs ++ (closing literal ++ rest)) := by
    simp [writeIn, closing, literal]
  rw [hwritten, text?.eq_4, quoted, quotedFrom_raw hf hsingle cs 0 [] (hasRun_eq_false (by decide) hquotes)
    (fun c hc => .inl (heach c hc)) fun _ => ⟨rfl, hquotes⟩]
  · simp
  · intro r hr
    cases cs with
    | nil => exact hfilled rfl
    | cons c cs => exact hquotes ((List.cons.inj hr).1 ▸ List.mem_cons_self)

theorem text?_literalLines (hsingle : Ends '\'' rest) (hrun : hasRun '\'' 3 0 cs = false)
    (heach : ∀ c ∈ cs, isControl c = false) :
    text? e (writeIn literalLines cs ++ rest) = some (String.ofList cs, rest) := by
  have hf : IsLiteral literalLines := ⟨rfl, rfl⟩
  have hstand : ∀ c ∈ cs, MayStand literalLines c := by
    intro c hc
    by_cases hline : c = '\n'
    · exact .inr ⟨hline, rfl⟩
    · exact .inl (isPlain_of_not_control (heach c hc) hline)
  have hwritten : writeIn literalLines cs ++ rest = '\'' :: '\'' :: '\'' ::
      ((if literalLines.lines ∧ cs.contains '\n' then ['\n'] else []) ++ (cs ++ (closing literalLines ++ rest))) := by
    simp [writeIn, closing, literalLines]
  rw [hwritten, text?.eq_3, quotedLines_start rfl, quoted, quotedFrom_raw hf hsingle cs 0 [] hrun hstand nofun]
  · simp
  · intro hbroken
    cases cs with
    | nil => exact ⟨_, _, rfl, by decide, by decide⟩
    | cons c cs =>
      refine ⟨c, _, rfl, fun h => hbroken (h ▸ List.mem_cons_self), fun h => ?_⟩
      have hcontrol := heach c List.mem_cons_self
      rw [h] at hcontrol
      exact absurd hcontrol (by decide)

/-- Whatever form a text fits, it is read as the text. -/
theorem text?_writeIn (hfits : Fits cs f) (hdouble : Ends '"' rest) (hsingle : Ends '\'' rest) :
    text? e (writeIn f cs ++ rest) = some (String.ofList cs, rest) := by
  cases hfits with
  | basic => exact text?_basic hdouble
  | basicLines => exact text?_basicLines hdouble
  | literal hfilled hquotes heach => exact text?_literal hsingle hfilled hquotes heach
  | literalLines hrun heach => exact text?_literalLines hsingle hrun heach

end Forms

/-- A text is read as it was written. -/
theorem text?_writeChars (cs : List Char) {rest : List Char} (hdouble : Ends '"' rest) (hsingle : Ends '\'' rest) :
    text? e (writeChars cs ++ rest) = some (String.ofList cs, rest) :=
  text?_writeIn (fits_formOf cs) hdouble hsingle

end SyntaxView.Toml
