import SyntaxView.Command.Words

/-!
# The grammar of command lines

`Line s ws` says that the text `s` is a command line with the words `ws`, by the rules a user knows: words are runs of
segments (`Segment`), blanks stand between them, and a line may end in a backslash that nothing follows. The scan
accepts exactly the lines and gives their words (`scan_bare_iff_line`).

Between the two stands `Remainder word s ws`: with `word` read so far, `s` completes a line and `ws` are the words from
here on. It follows the scan segment by segment (`scan_bare_iff_remainder`), whatever the scan does inside quotes, and a
remainder after no word is a line (`remainder_none_iff_line`).

Any words can be written as a line: `enquoteAll` puts each of them in quotes of one kind or the other.
-/

namespace SyntaxView.Command

/-! ## The grammar -/

/-- The text between double quotes and its value. -/
inductive Quotation : List Char → List Char → Prop
  | nil : Quotation [] []
  | plain {c : Char} {t v : List Char} : c ≠ '"' → c ≠ '\\' → Quotation t v → Quotation (c :: t) (c :: v)
  | quoted {c : Char} {t v : List Char} : c ∈ ['"', '\\', '$', '\x60'] → Quotation t v →
      Quotation ('\\' :: c :: t) (c :: v)
  | kept {c : Char} {t v : List Char} : c ∉ ['"', '\\', '$', '\x60'] → Quotation t v →
      Quotation ('\\' :: c :: t) ('\\' :: c :: v)

/-- A segment of a word and its value. -/
inductive Segment : List Char → List Char → Prop
  | bare {c : Char} : Text.isBlank c = false → c ≠ '\'' → c ≠ '"' → c ≠ '\\' → Segment [c] [c]
  | escaped (c : Char) : Segment ['\\', c] [c]
  | single {t : List Char} : '\'' ∉ t → Segment ('\'' :: t ++ ['\'']) t
  | double {t v : List Char} : Quotation t v → Segment ('"' :: t ++ ['"']) v

/-- A word is a run of segments, at least one, and its value is what they give together. -/
inductive Word : List Char → List Char → Prop
  | one {t v : List Char} : Segment t v → Word t v
  | more {t t' v v' : List Char} : Segment t v → Word t' v' → Word (t ++ t') (v ++ v')

/-- Characters that separate words. -/
def Blanks (b : List Char) : Prop := ∀ c ∈ b, Text.isBlank c = true

theorem Blanks.nil : Blanks [] := nofun

theorem Blanks.cons {c : Char} {b : List Char} (hc : Text.isBlank c = true) (hb : Blanks b) : Blanks (c :: b) :=
  List.forall_mem_cons.2 ⟨hc, hb⟩

theorem Blanks.append {a b : List Char} (ha : Blanks a) (hb : Blanks b) : Blanks (a ++ b) :=
  List.forall_mem_append.2 ⟨ha, hb⟩

/-- Words with blanks between any two of them. -/
inductive Words : List Char → List String → Prop
  | nil : Words [] []
  | one {t v : List Char} : Word t v → Words t [String.ofList v]
  | more {t v b t' : List Char} {w : String} {ws : List String} : Word t v → Blanks b → b ≠ [] → Words t' (w :: ws) →
      Words (t ++ b ++ t') (String.ofList v :: w :: ws)

/-- A command line and its words; the backslash at the end, if there is one, belongs to none of them. -/
inductive Line : List Char → List String → Prop
  | mk {before body after dangling : List Char} {ws : List String} : Blanks before → Words body ws → Blanks after →
      dangling = [] ∨ dangling = ['\\'] → Line (before ++ body ++ after ++ dangling) ws

/-- With `word` read so far, the text completes a line, and these are its words from `word` on. -/
inductive Remainder : Option (List Char) → List Char → List String → Prop
  | stop (word : Option (List Char)) : Remainder word [] (finished word)
  | dangling (word : Option (List Char)) : Remainder word ['\\'] (finished word)
  | blank {word : Option (List Char)} {c : Char} {cs : List Char} {ws : List String} : Text.isBlank c = true →
      Remainder none cs ws → Remainder word (c :: cs) (finished word ++ ws)
  | segment {word : Option (List Char)} {t v cs : List Char} {ws : List String} : Segment t v →
      Remainder (some (v.reverse ++ word.getD [])) cs ws → Remainder word (t ++ cs) ws

theorem quotable_iff {c : Char} : quotable c = true ↔ c ∈ ['"', '\\', '$', '\x60'] := by
  simp [quotable, or_assoc]

/-- No blank has a meaning of its own to the scan. -/
theorem ne_of_isBlank {c : Char} (h : Text.isBlank c = true) : c ≠ '\'' ∧ c ≠ '"' ∧ c ≠ '\\' := by
  refine ⟨?_, ?_, ?_⟩ <;> rintro rfl <;> exact absurd h (by decide)

/-! ## Scanning what the grammar gives -/

section Scanning

variable {cs : List Char}

theorem scan_single_append (cs : List Char) : ∀ {t w : List Char}, '\'' ∉ t →
    scan .single (some w) (t ++ '\'' :: cs) = scan .bare (some (t.reverse ++ w)) cs
  | [], w, _ => by simp [scan]
  | c :: t, w, h => by
    simp only [List.mem_cons, not_or] at h
    have hc : c ≠ '\'' := fun e => h.1 e.symm
    simp only [List.cons_append, scan, hc, ↓reduceIte, extend, Option.getD_some]
    rw [scan_single_append cs h.2]
    simp

theorem scan_double_append (cs : List Char) {t v : List Char} (h : Quotation t v) : ∀ w : List Char,
    scan .double (some w) (t ++ '"' :: cs) = scan .bare (some (v.reverse ++ w)) cs := by
  induction h with
  | nil => intro w; simp [scan]
  | plain hq hb _ ih =>
    intro w
    simp only [List.cons_append, scan, hq, hb, ↓reduceIte, extend, Option.getD_some]
    rw [ih]
    simp
  | quoted hc _ ih =>
    intro w
    simp only [List.cons_append, scan, quotable_iff.2 hc, ↓reduceIte, extend, Option.getD_some]
    simp [ih]
  | kept hc _ ih =>
    intro w
    have hc' : quotable _ = false := Bool.eq_false_iff.2 fun h => hc (quotable_iff.1 h)
    simp only [List.cons_append, scan, hc', ↓reduceIte, extend, Option.getD_some]
    simp [ih]

/-- The scan takes a segment as a whole and adds its value to the word. -/
theorem scan_segment {t v : List Char} (h : Segment t v) (word : Option (List Char)) :
    scan .bare word (t ++ cs) = scan .bare (some (v.reverse ++ word.getD [])) cs := by
  cases h with
  | bare hblank hs hd hb => simp [scan, hblank, hs, hd, hb, extend]
  | escaped c => simp [scan, extend]
  | single ht =>
    have h := scan_single_append cs (w := word.getD []) ht
    simpa [scan] using h
  | double hq =>
    have h := scan_double_append cs hq (word.getD [])
    simpa [scan] using h

theorem scan_blank {c : Char} (h : Text.isBlank c = true) (word : Option (List Char)) :
    scan .bare word (c :: cs) = (scan .bare none cs).map (finished word ++ ·) := by
  obtain ⟨hs, hd, hb⟩ := ne_of_isBlank h
  simp [scan, hs, hd, hb, h]

theorem scan_of_remainder {word : Option (List Char)} {ws : List String} (h : Remainder word cs ws) :
    scan .bare word cs = some ws := by
  induction h with
  | stop word => rfl
  | dangling word => rfl
  | blank hc _ ih => rw [scan_blank hc, ih]; rfl
  | segment hs _ ih => rw [scan_segment hs]; exact ih

end Scanning

/-! ## What a scan has read -/

section Reading

variable {ws : List String}

/-- A scan inside single quotes that ends well has met the closing quote. -/
theorem exists_single : ∀ {cs w : List Char}, scan .single (some w) cs = some ws →
    ∃ t rest, cs = t ++ '\'' :: rest ∧ '\'' ∉ t ∧ scan .bare (some (t.reverse ++ w)) rest = some ws
  | [], _, h => by simp [scan] at h
  | c :: cs, w, h => by
    by_cases hc : c = '\''
    · subst hc
      simp only [scan, ↓reduceIte] at h
      exact ⟨[], cs, rfl, by simp, h⟩
    · simp only [scan, hc, ↓reduceIte, extend, Option.getD_some] at h
      obtain ⟨t, rest, rfl, ht, hrest⟩ := exists_single h
      refine ⟨c :: t, rest, rfl, ?_, by simpa using hrest⟩
      simp only [List.mem_cons, not_or]
      exact ⟨fun e => hc e.symm, ht⟩

/-- A scan inside double quotes that ends well has read a quotation and met the closing quote. -/
theorem exists_double : ∀ {cs w : List Char}, scan .double (some w) cs = some ws →
    ∃ t v rest, cs = t ++ '"' :: rest ∧ Quotation t v ∧ scan .bare (some (v.reverse ++ w)) rest = some ws
  | [], _, h => by simp [scan] at h
  | [c], w, h => by
    by_cases hq : c = '"'
    · subst hq
      exact ⟨[], [], [], rfl, .nil, h⟩
    · by_cases hb : c = '\\' <;> simp [scan, hq, hb] at h
  | c :: d :: cs, w, h => by
    by_cases hq : c = '"'
    · subst hq
      exact ⟨[], [], d :: cs, rfl, .nil, h⟩
    by_cases hb : c = '\\'
    -- A backslash takes the character after it along, so the recursion goes on two characters later.
    · subst hb
      by_cases hd : quotable d = true
      · simp only [scan, hq, hd, ↓reduceIte, extend, Option.getD_some] at h
        obtain ⟨t, v, rest, rfl, hv, hrest⟩ := exists_double h
        exact ⟨'\\' :: d :: t, d :: v, rest, rfl, .quoted (quotable_iff.1 hd) hv, by simpa using hrest⟩
      · simp only [scan, hq, hd, ↓reduceIte, extend, Option.getD_some, Bool.false_eq_true] at h
        obtain ⟨t, v, rest, rfl, hv, hrest⟩ := exists_double h
        have hk : d ∉ ['"', '\\', '$', '\x60'] := fun hm => hd (quotable_iff.2 hm)
        exact ⟨'\\' :: d :: t, '\\' :: d :: v, rest, rfl, .kept hk hv, by simpa using hrest⟩
    · rw [scan, if_neg hq, if_neg hb] at h
      obtain ⟨t, v, rest, he, hv, hrest⟩ := exists_double h
      exact ⟨c :: t, c :: v, rest, by rw [he]; rfl, .plain hq hb hv, by simpa using hrest⟩

/-- The scan outside quotes stops, passes a blank, or takes a whole segment. -/
theorem remainder_of_scan {word : Option (List Char)} {cs : List Char} (h : scan .bare word cs = some ws) :
    Remainder word cs ws := by
  -- A segment may be long, so the induction is on the length of what is left.
  induction hn : cs.length using Nat.strongRecOn generalizing word cs ws with
  | _ n ih =>
    subst hn
    cases cs with
    | nil =>
      simp only [scan, Option.some.injEq] at h
      subst h
      exact .stop word
    | cons c cs =>
      by_cases hs : c = '\''
      · subst hs
        simp only [scan, ↓reduceIte] at h
        obtain ⟨t, rest, rfl, ht, hrest⟩ := exists_single h
        have hr := ih rest.length (by simp only [List.length_cons, List.length_append]; omega) hrest rfl
        simpa using Remainder.segment (.single ht) hr
      · by_cases hd : c = '"'
        · subst hd
          simp only [scan, hs, ↓reduceIte] at h
          obtain ⟨t, v, rest, rfl, hq, hrest⟩ := exists_double h
          have hr := ih rest.length (by simp only [List.length_cons, List.length_append]; omega) hrest rfl
          simpa using Remainder.segment (.double hq) hr
        · by_cases hb : c = '\\'
          · subst hb
            cases cs with
            | nil =>
              simp only [scan, hs, hd, ↓reduceIte, Option.some.injEq] at h
              subst h
              exact .dangling word
            | cons c cs =>
              simp only [scan, hs, hd, ↓reduceIte, extend] at h
              exact .segment (t := ['\\', c]) (.escaped c) (ih cs.length (by simp only [List.length_cons]; omega) h rfl)
          · by_cases hblank : Text.isBlank c = true
            · rw [scan_blank hblank, Option.map_eq_some_iff] at h
              obtain ⟨ws', h', rfl⟩ := h
              exact .blank hblank (ih cs.length (by simp) h' rfl)
            · simp only [scan, hs, hd, hb, hblank, ↓reduceIte, extend] at h
              have hr := ih cs.length (by simp) h rfl
              exact .segment (t := [c]) (.bare (by simpa using hblank) hs hd hb) hr

theorem scan_bare_iff_remainder {word : Option (List Char)} {cs : List Char} :
    scan .bare word cs = some ws ↔ Remainder word cs ws := ⟨remainder_of_scan, scan_of_remainder⟩

end Reading

/-! ## Remainders and lines -/

section Lines

variable {cs : List Char} {ws : List String}

theorem remainder_blanks : ∀ {b : List Char}, Blanks b → Remainder none cs ws → Remainder none (b ++ cs) ws
  | [], _, h => h
  | c :: b, hb, h => by
    have hr := remainder_blanks (fun d hd => hb d (List.mem_cons_of_mem c hd)) h
    exact show Remainder none (c :: (b ++ cs)) (finished none ++ ws) from .blank (hb c List.mem_cons_self) hr

theorem remainder_word {t v : List Char} (h : Word t v) : ∀ {word : Option (List Char)},
    Remainder (some (v.reverse ++ word.getD [])) cs ws → Remainder word (t ++ cs) ws := by
  induction h with
  | one hs => exact fun hr => .segment hs hr
  | more hs _ ih =>
    intro word hr
    rw [List.append_assoc]
    refine .segment hs (ih ?_)
    simpa using hr

/-- After a word stands the end of the line, or a blank and what a line may hold. -/
theorem remainder_finish (word : Option (List Char)) : ∀ {b : List Char}, Blanks b → b ≠ [] → Remainder none cs ws →
    Remainder word (b ++ cs) (finished word ++ ws)
  | [], _, h, _ => absurd rfl h
  | c :: b, hb, _, h => by
    have hr := remainder_blanks (fun d hd => hb d (List.mem_cons_of_mem c hd)) h
    exact .blank (hb c List.mem_cons_self) hr

theorem remainder_end (word : Option (List Char)) {after dangling : List Char} (ha : Blanks after)
    (hd : dangling = [] ∨ dangling = ['\\']) : Remainder word (after ++ dangling) (finished word) := by
  have hend : ∀ word, Remainder word dangling (finished word) := by
    rcases hd with rfl | rfl
    · exact .stop
    · exact .dangling
  cases after with
  | nil => exact hend word
  | cons c after =>
    have hr := remainder_finish word ha (by simp) (hend none)
    simpa [finished] using hr

theorem remainder_words {body : List Char} (h : Words body ws) {after dangling : List Char} (ha : Blanks after)
    (hd : dangling = [] ∨ dangling = ['\\']) : Remainder none (body ++ (after ++ dangling)) ws := by
  induction h with
  | nil => simpa [finished] using remainder_end none ha hd
  | @one t v hw =>
    have hr := remainder_end (some v.reverse) ha hd
    exact remainder_word hw (by simpa [finished] using hr)
  | @more t v b t' w ws hw hb hne _ ih =>
    rw [List.append_assoc, List.append_assoc]
    refine remainder_word hw ?_
    have hr := remainder_finish (some v.reverse) hb hne ih
    simpa [finished] using hr

theorem remainder_of_line (h : Line cs ws) : Remainder none cs ws := by
  obtain ⟨hb, hw, ha, hd⟩ := h
  rw [List.append_assoc, List.append_assoc]
  exact remainder_blanks hb (remainder_words hw ha hd)

theorem Line.blank {c : Char} (hc : Text.isBlank c = true) (h : Line cs ws) : Line (c :: cs) ws := by
  obtain ⟨hb, hw, ha, hd⟩ := h
  exact .mk (Blanks.cons hc hb) hw ha hd

theorem Line.word_blank {t v : List Char} {c : Char} (hw : Word t v) (hc : Text.isBlank c = true) (h : Line cs ws) :
    Line (t ++ c :: cs) (String.ofList v :: ws) := by
  cases h with
  | @mk before body after dangling ws hb hws ha hd =>
    have hcb : Blanks (c :: before) := Blanks.cons hc hb
    cases ws with
    | nil =>
      -- No word follows, so all blanks stand behind the last one.
      cases hws
      simpa using Line.mk Blanks.nil (.one hw) (hcb.append ha) hd
    | cons w ws =>
      simpa using Line.mk Blanks.nil (.more hw hcb (by simp) hws) ha hd

/-- What a remainder says of the text: after no word, a line; inside a word, the rest of the word and then the end of
the line, or a blank and a line. -/
def Completes : Option (List Char) → List Char → List String → Prop
  | none, cs, ws => Line cs ws
  | some w, cs, ws => ∃ t v rest ws', (t = [] ∧ v = [] ∨ Word t v) ∧ cs = t ++ rest ∧
      ws = String.ofList (w.reverse ++ v) :: ws' ∧
      ((rest = [] ∨ rest = ['\\']) ∧ ws' = [] ∨ ∃ c rest', Text.isBlank c = true ∧ rest = c :: rest' ∧ Line rest' ws')

theorem Completes.ended {dangling : List Char} (hd : dangling = [] ∨ dangling = ['\\']) :
    ∀ word, Completes word dangling (finished word)
  | none => Line.mk Blanks.nil .nil Blanks.nil hd
  | some w => ⟨[], [], dangling, [], .inl ⟨rfl, rfl⟩, rfl, by simp [finished], .inl ⟨hd, rfl⟩⟩

theorem Completes.blank {c : Char} (hc : Text.isBlank c = true) (h : Line cs ws) :
    ∀ word, Completes word (c :: cs) (finished word ++ ws)
  | none => h.blank hc
  | some w => ⟨[], [], c :: cs, ws, .inl ⟨rfl, rfl⟩, rfl, by simp [finished], .inr ⟨c, cs, hc, rfl, h⟩⟩

theorem Completes.segment {t v : List Char} (hs : Segment t v) : ∀ {word : Option (List Char)},
    Completes (some (v.reverse ++ word.getD [])) cs ws → Completes word (t ++ cs) ws := by
  rintro word ⟨t', v', rest, ws', ht, rfl, rfl, hrest⟩
  have hw : Word (t ++ t') (v ++ v') := by
    rcases ht with ⟨rfl, rfl⟩ | ht
    · simpa using Word.one hs
    · exact .more hs ht
  cases word with
  | some w => exact ⟨t ++ t', v ++ v', rest, ws', .inr hw, by simp, by simp, hrest⟩
  | none =>
    show Line _ _
    rcases hrest with ⟨hd, rfl⟩ | ⟨c, rest', hc, rfl, hl⟩
    · simpa using Line.mk Blanks.nil (.one hw) Blanks.nil hd
    · simpa using Line.word_blank hw hc hl

theorem completes_of_remainder {word : Option (List Char)} (h : Remainder word cs ws) : Completes word cs ws := by
  induction h with
  | stop word => exact Completes.ended (.inl rfl) word
  | dangling word => exact Completes.ended (.inr rfl) word
  | blank hc _ ih => exact Completes.blank hc ih _
  | segment hs _ ih => exact Completes.segment hs ih

theorem remainder_none_iff_line : Remainder none cs ws ↔ Line cs ws := ⟨completes_of_remainder, remainder_of_line⟩

/-- **The scan of a whole text reads a line.** -/
theorem scan_bare_iff_line : scan .bare none cs = some ws ↔ Line cs ws :=
  scan_bare_iff_remainder.trans remainder_none_iff_line

end Lines

/-! ## Words in quotes -/

/-- The two kinds of quotes. -/
inductive QuoteStyle where
  | single
  | double
  deriving DecidableEq, Repr

namespace QuoteStyle

def mark : QuoteStyle → Char
  | single => '\''
  | double => '"'

/-- How a character is written between quotes; a single quote has to leave them and come back. -/
def writeChar : QuoteStyle → Char → List Char
  | single, c => if c = '\'' then ['\'', '\\', '\'', '\''] else [c]
  | double, c => if quotable c then ['\\', c] else [c]

/-- A word in quotes. -/
def enquote (q : QuoteStyle) (w : String) : List Char := q.mark :: w.toList.flatMap q.writeChar ++ [q.mark]

end QuoteStyle

/-- Words in quotes, with a space between any two. -/
def enquoteAll : List (QuoteStyle × String) → List Char
  | [] => []
  | [(q, w)] => q.enquote w
  | (q, w) :: rest => q.enquote w ++ ' ' :: enquoteAll rest

/-- The single quotes have been opened before `t`, which holds none. -/
theorem word_single : ∀ (cs : List Char) {t : List Char}, '\'' ∉ t →
    Word ('\'' :: t ++ cs.flatMap QuoteStyle.single.writeChar ++ ['\'']) (t ++ cs)
  | [], t, ht => by simpa using Word.one (.single ht)
  | c :: cs, t, ht => by
    by_cases hc : c = '\''
    · subst hc
      have hrest : Word ('\'' :: cs.flatMap QuoteStyle.single.writeChar ++ ['\'']) cs :=
        word_single cs (t := []) (by simp)
      simpa [QuoteStyle.writeChar] using Word.more (.single ht) (.more (.escaped '\'') hrest)
    · have ht' : '\'' ∉ t ++ [c] := by simp [ht, Ne.symm hc]
      simpa [QuoteStyle.writeChar, hc] using word_single cs ht'

theorem quotation_double : ∀ cs : List Char, Quotation (cs.flatMap QuoteStyle.double.writeChar) cs
  | [] => .nil
  | c :: cs => by
    by_cases hc : quotable c = true
    · simpa [QuoteStyle.writeChar, hc] using Quotation.quoted (quotable_iff.1 hc) (quotation_double cs)
    · have hm : c ∉ ['"', '\\', '$', '\x60'] := fun hm => hc (quotable_iff.2 hm)
      simp only [List.mem_cons, not_or] at hm
      simpa [QuoteStyle.writeChar, hc] using Quotation.plain hm.1 hm.2.1 (quotation_double cs)

theorem word_enquote (q : QuoteStyle) (w : String) : Word (q.enquote w) w.toList := by
  cases q with
  | single => exact word_single w.toList (t := []) (by simp)
  | double => exact .one (.double (quotation_double w.toList))

theorem words_enquoteAll : ∀ l : List (QuoteStyle × String), Words (enquoteAll l) (l.map Prod.snd)
  | [] => .nil
  | [(q, w)] => by simpa [enquoteAll] using Words.one (word_enquote q w)
  | (q, w) :: (q', w') :: rest => by
    have hb : Blanks [' '] := Blanks.cons (by decide) Blanks.nil
    simpa [enquoteAll] using Words.more (word_enquote q w) hb (by simp) (words_enquoteAll ((q', w') :: rest))

theorem line_enquoteAll (l : List (QuoteStyle × String)) : Line (enquoteAll l) (l.map Prod.snd) := by
  simpa using Line.mk Blanks.nil (words_enquoteAll l) Blanks.nil (.inl rfl)

/-! ## Splitting a line -/

/-- **Splitting accepts exactly the lines and gives exactly their words**, so every list of words is the result of
splitting some line, whatever characters the words hold and however each of them is quoted. -/
theorem split_iff_line :
    (∀ (s : String) (ws : List String), split s = some ws ↔ Line s.toList ws) ∧
      (∀ s : String, split s = none ↔ ¬∃ ws, Line s.toList ws) ∧
      ∀ l : List (QuoteStyle × String), split (String.ofList (enquoteAll l)) = some (l.map Prod.snd) := by
  have hsome : ∀ (s : String) (ws : List String), split s = some ws ↔ Line s.toList ws := fun _ _ => scan_bare_iff_line
  refine ⟨hsome, fun s => ?_, fun l => ?_⟩
  · rw [Option.eq_none_iff_forall_ne_some]
    simp [hsome]
  · rw [hsome, String.toList_ofList]
    exact line_enquoteAll l

end SyntaxView.Command
