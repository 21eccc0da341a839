import SyntaxView.Json.Reader

/-!
# Reading JSON text back

The text of a value is read as that value, on one line (`parse_compact`) or indented and ended by a newline
(`parse_pretty`), if the value is one a reader can give at all: its integers lie in 64 bits, it holds no decimal
literal, and no object has a key twice (`Readable InWord`). Whatever the range of the integers, the text on one line
holds no newline (`newline_not_mem_compact`).

Both texts come from one printer. Where they differ they hold blanks, which the reader skips wherever they stand
(`skipSpace_gap`, `colon_colonText`), so the lemmas on the reader hold of any indent. The fuel of the reader is measured
by the length of the text: a part of a value is shorter than the value by its bracket at least.
-/

namespace SyntaxView.Json

/-! ## Values that can be read back -/

/-- The integer fits into 64 bits, with a sign if it is negative. -/
def InWord (n : Int) : Prop := -0x8000000000000000 ≤ n ∧ n < 0x10000000000000000

mutual
/-- The integers of the value lie in a range, it holds no decimal literal, and no object has a key twice. -/
def Readable (range : Int → Prop) : Json → Prop
  | .null | .bool _ | .str _ => True
  | .int n => range n
  | .decimal _ => False
  | .arr items => AllReadable range items
  | .obj fields => (fields.map Prod.fst).Nodup ∧ FieldsReadable range fields
termination_by structural v => v

def AllReadable (range : Int → Prop) : List Json → Prop
  | [] => True
  | v :: rest => Readable range v ∧ AllReadable range rest
termination_by structural l => l

def FieldsReadable (range : Int → Prop) : List (String × Json) → Prop
  | [] => True
  | (_, v) :: rest => Readable range v ∧ FieldsReadable range rest
termination_by structural l => l
end

section Fields

variable {range : Int → Prop}

theorem fieldsReadable_append : ∀ {fields more : List (String × Json)}, FieldsReadable range fields →
    FieldsReadable range more → FieldsReadable range (fields ++ more)
  | [], _, _, h => h
  | (_, _) :: _, _, h, h' => ⟨h.1, fieldsReadable_append h.2 h'⟩

theorem fieldsReadable_optional {α : Type} {key : String} {e : α → Json} {a : Option α}
    (h : ∀ x, a = some x → (e x).Readable range) : FieldsReadable range (optional key (a.map e)) := by
  cases a with
  | none => trivial
  | some x => exact ⟨h x rfl, trivial⟩

end Fields

/-! ## Strings -/

theorem hexDigit?_digitChar : ∀ d < 16, hexDigit? (Nat.digitChar d) = some d := by decide

/-- The digits of a control character lead back to it. -/
theorem stringFrom_hex4 {n : Nat} (hn : n < 0x20) (acc rest : List Char) :
    stringFrom .strict (.hex none 0 0) acc (hex4 n ++ rest) = stringFrom .strict .plain (Char.ofNat n :: acc) rest := by
  have h₁ : hexDigit? (Nat.digitChar (n / 4096 % 16)) = some (n / 4096 % 16) := hexDigit?_digitChar _ (by omega)
  have h₂ : hexDigit? (Nat.digitChar (n / 256 % 16)) = some (n / 256 % 16) := hexDigit?_digitChar _ (by omega)
  have h₃ : hexDigit? (Nat.digitChar (n / 16 % 16)) = some (n / 16 % 16) := hexDigit?_digitChar _ (by omega)
  have h₄ : hexDigit? (Nat.digitChar (n % 16)) = some (n % 16) := hexDigit?_digitChar _ (by omega)
  have hv : ((n / 4096 % 16 * 16 + n / 256 % 16) * 16 + n / 16 % 16) * 16 + n % 16 = n := by omega
  have hlow : isLow n = false := by simp [isLow]; omega
  have hhigh : isHigh n = false := by simp [isHigh]; omega
  simp [hex4, stringFrom, h₁, h₂, h₃, h₄, hv, afterHex, hlow, hhigh]

theorem stringFrom_escapeChar (c : Char) (acc rest : List Char) :
    stringFrom .strict .plain acc (escapeChar c ++ rest) = stringFrom .strict .plain (c :: acc) rest := by
  unfold escapeChar
  split
  · subst_vars; simp [stringFrom, simpleEscape?]
  split
  · subst_vars; simp [stringFrom, simpleEscape?]
  split
  · rename_i h
    obtain rfl : c = Char.ofNat 8 := by rw [← h, Char.ofNat_toNat]
    simp [stringFrom, simpleEscape?]
  split
  · rename_i h
    obtain rfl : c = Char.ofNat 12 := by rw [← h, Char.ofNat_toNat]
    simp [stringFrom, simpleEscape?]
  split
  · subst_vars; simp [stringFrom, simpleEscape?]
  split
  · subst_vars; simp [stringFrom, simpleEscape?]
  split
  · subst_vars; simp [stringFrom, simpleEscape?]
  split
  · rename_i h
    have hu : stringFrom .strict .plain acc ('\\' :: 'u' :: hex4 c.toNat ++ rest) =
        stringFrom .strict (.hex none 0 0) acc (hex4 c.toNat ++ rest) := by simp [stringFrom, simpleEscape?]
    rw [hu, stringFrom_hex4 h, Char.ofNat_toNat]
  · rename_i hq hb _ _ _ _ _ h
    simp [stringFrom, hq, hb, h]

theorem stringFrom_escaped (rest : List Char) : ∀ cs acc : List Char,
    stringFrom .strict .plain acc (cs.flatMap escapeChar ++ '"' :: rest) = .ok (String.ofList (acc.reverse ++ cs), rest)
  | [], acc => by simp [stringFrom]
  | c :: cs, acc => by
    rw [List.flatMap_cons, List.append_assoc, stringFrom_escapeChar, stringFrom_escaped rest cs]
    simp

/-- A quoted string is read as the string. -/
theorem string_quote (s : String) (rest : List Char) :
    string .strict (s.toList.flatMap escapeChar ++ '"' :: rest) = .ok (s, rest) := by
  rw [string, stringFrom_escaped]
  simp

/-! ## Integers -/

theorem isDigit_eq (c : Char) : isDigit c = c.isDigit := by
  simp only [isDigit, Char.isDigit, Char.le_def]

theorem isDigit_of_mem_toDigits {c : Char} {n : Nat} (h : c ∈ Nat.toDigits 10 n) : isDigit c = true := by
  rw [isDigit_eq]
  exact Nat.isDigit_of_mem_toDigits (by decide) (by decide) h

theorem digitsValue_toDigits (n : Nat) : digitsValue (Nat.toDigits 10 n) = n := by
  have h := Nat.ofDigitChars_ten_toDigits (n := n)
  rw [Nat.ofDigitChars_eq_foldl] at h
  simpa [digitsValue, Nat.mul_comm] using h

/-- A number is not written with a zero in front. -/
theorem toDigits_ne_zero_cons : ∀ (n : Nat) {d : Char} {ds : List Char}, Nat.toDigits 10 n ≠ '0' :: d :: ds := by
  intro n
  induction n using Nat.strongRecOn with
  | _ n ih =>
    intro d ds h
    rw [Nat.toDigits_eq_if (by decide)] at h
    split at h
    · simp at h
    · rename_i hn
      cases hq : Nat.toDigits 10 (n / 10) with
      | nil => exact absurd hq Nat.toDigits_ne_nil
      | cons e es =>
        rw [hq, List.cons_append, List.cons.injEq] at h
        obtain ⟨rfl, h⟩ := h
        cases es with
        | nil =>
          have hz := digitsValue_toDigits (n / 10)
          rw [hq] at hz
          have : n / 10 = 0 := by rw [← hz]; decide
          omega
        | cons e' es => exact ih (n / 10) (by omega) hq

/-- What may stand after a value: nothing, a newline, or a character that goes on with what is around the value. -/
def Closed (rest : List Char) : Prop := rest = [] ∨ ∃ c cs, rest = c :: cs ∧ c ∈ [',', ']', '\x7d', '\n']

theorem Closed.cons {c : Char} {cs : List Char} (h : c ∈ [',', ']', '\x7d', '\n']) : Closed (c :: cs) :=
  .inr ⟨c, cs, rfl, h⟩

/-- A value may be followed by what comes before the bracket that ends the object or array around it. -/
theorem Closed.gap_append {cs : List Char} (h : Closed cs) :
    ∀ (indent : Option Nat) (d : Nat), Closed (gap indent d ++ cs)
  | none, _ => h
  | some _, _ => .cons (by decide)

theorem Closed.span_digits {rest : List Char} (h : Closed rest) (n : Nat) :
    (Nat.toDigits 10 n ++ rest).takeWhile isDigit = Nat.toDigits 10 n ∧
      (Nat.toDigits 10 n ++ rest).dropWhile isDigit = rest := by
  have hd : ∀ c ∈ Nat.toDigits 10 n, isDigit c = true := fun c hc => isDigit_of_mem_toDigits hc
  rw [List.takeWhile_append_of_pos hd, List.dropWhile_append_of_pos hd]
  rcases h with rfl | ⟨c, cs, rfl, hc⟩
  · simp
  · have hn : isDigit c = false := by
      simp only [List.mem_cons, List.not_mem_nil, or_false] at hc
      rcases hc with rfl | rfl | rfl | rfl <;> decide
    simp [hn]

theorem Closed.wholePart {rest : List Char} (h : Closed rest) (n : Nat) :
    wholePart .strict (Nat.toDigits 10 n ++ rest) = .ok (Nat.toDigits 10 n, rest) := by
  obtain ⟨ht, hd⟩ := h.span_digits n
  have hdigits : digits .strict (Nat.toDigits 10 n ++ rest) = .ok (Nat.toDigits 10 n, rest) := by
    unfold digits
    rw [ht, hd]
    split
    · rename_i hnil
      exact absurd hnil Nat.toDigits_ne_nil
    · rfl
  unfold Json.wholePart
  rw [hdigits]
  split
  · rename_i h'; cases h'
  · rename_i h'
    simp only [Except.ok.injEq, Prod.mk.injEq] at h'
    exact absurd h'.1 (toDigits_ne_zero_cons n)
  · rename_i h'; exact h'.symm

theorem Closed.fractionPart {rest : List Char} (h : Closed rest) : fractionPart .strict rest = .ok (none, rest) := by
  rcases h with rfl | ⟨c, cs, rfl, hc⟩
  · rfl
  · simp only [List.mem_cons, List.not_mem_nil, or_false] at hc
    rcases hc with rfl | rfl | rfl | rfl <;> rfl

theorem Closed.exponentPart {rest : List Char} (h : Closed rest) : exponentPart .strict rest = .ok (none, rest) := by
  rcases h with rfl | ⟨c, cs, rfl, hc⟩
  · rfl
  · simp only [List.mem_cons, List.not_mem_nil, or_false] at hc
    rcases hc with rfl | rfl | rfl | rfl <;> rfl

/-! ### The range of double precision -/

/-- Rounding at most doubles a number. -/
theorem roundToDouble_le (n : Nat) (h : n ≠ 0) : Decimal.roundToDouble n ≤ 2 * n := by
  have hunit : 2 ^ (n.log2 - 52) ≤ n := Nat.le_trans (Nat.pow_le_pow_right (by decide) (by omega)) (Nat.log2_self_le h)
  have hfloor : n / 2 ^ (n.log2 - 52) * 2 ^ (n.log2 - 52) ≤ n := Nat.div_mul_le_self _ _
  simp only [Decimal.roundToDouble, Nat.pow_eq]
  split
  · rw [Nat.add_mul, Nat.one_mul]
    omega
  · omega

theorem isFiniteProduct_zero {n : Nat} (h : n < 0x10000000000000000) : Decimal.isFiniteProduct n 0 = true := by
  unfold Decimal.isFiniteProduct
  split
  · rfl
  · rename_i hn
    have hle : Decimal.roundToDouble n ≤ 2 * n := roundToDouble_le n (fun e => hn (.inl e))
    have hone : Decimal.roundToDouble (Nat.pow 10 (Int.toNat 0)) = 1 := by decide
    have hbound : 0x20000000000000000 ≤ Decimal.doubleBound := by decide +kernel
    rw [hone, Nat.mul_one, if_neg (by decide), decide_eq_true_eq]
    omega

theorem le_foldl_digits : ∀ (ds : List Char) (m : Nat), m ≤ ds.foldl (fun n d => n * 10 + (d.toNat - '0'.toNat)) m
  | [], m => Nat.le_refl m
  | d :: ds, m => Nat.le_trans (show m ≤ m * 10 + (d.toNat - '0'.toNat) by omega) (le_foldl_digits ds _)

/-- Digits of a number below the bound are all taken. -/
theorem appendDigits_eq : ∀ (ds : List Char) (n : Nat),
    ds.foldl (fun n d => n * 10 + (d.toNat - '0'.toNat)) n < 0x10000000000000000 →
      Decimal.appendDigits n ds = (ds.foldl (fun n d => n * 10 + (d.toNat - '0'.toNat)) n, [])
  | [], _, _ => rfl
  | d :: ds, n, h => by
    have hlt : n * 10 + (d.toNat - '0'.toNat) < 0x10000000000000000 := Nat.lt_of_le_of_lt (le_foldl_digits ds _) h
    rw [Decimal.appendDigits]
    simp only [if_pos hlt]
    exact appendDigits_eq ds _ h

theorem inProductRange_toDigits (negative : Bool) {n : Nat} (h : n < 0x10000000000000000) :
    Decimal.inProductRange ⟨negative, Nat.toDigits 10 n, none, none⟩ = true := by
  have hv := digitsValue_toDigits n
  unfold digitsValue at hv
  have happ := appendDigits_eq (Nat.toDigits 10 n) 0 (by rw [hv]; exact h)
  rw [hv] at happ
  simp [Decimal.inProductRange, happ, Decimal.appendDigits, isFiniteProduct_zero h]

/-! ### Literals -/

/-- The literal that an integer is written as. -/
def literal : Int → Decimal
  | .ofNat n => ⟨false, Nat.toDigits 10 n, none, none⟩
  | .negSucc n => ⟨true, Nat.toDigits 10 (n + 1), none, none⟩

theorem number_intText {n : Int} (hn : InWord n) {rest : List Char}
    (h : Closed rest) : number .strict (intText n ++ rest) = .ok (literal n, rest) := by
  cases n with
  | ofNat n =>
    have hrange := inProductRange_toDigits false (n := n) (by simp [InWord] at hn; omega)
    have hsign : ∀ cs, Nat.toDigits 10 n ++ rest ≠ '-' :: cs := by
      intro cs heq
      cases hd : Nat.toDigits 10 n with
      | nil => exact absurd hd Nat.toDigits_ne_nil
      | cons d ds =>
        rw [hd, List.cons_append, List.cons.injEq] at heq
        have hdigit := isDigit_of_mem_toDigits (c := d) (n := n) (by rw [hd]; simp)
        rw [heq.1] at hdigit
        exact absurd hdigit (by decide)
    -- The match on the sign is decided by `hsign`.
    simp [number, intText, h.wholePart, h.fractionPart, h.exponentPart, literal, hrange, bind, Except.bind]
  | negSucc n =>
    have hrange := inProductRange_toDigits true (n := n + 1) (by simp [InWord] at hn; omega)
    simp [number, intText, h.wholePart, h.fractionPart, h.exponentPart, literal, hrange, bind, Except.bind]

theorem ofDecimal_literal {n : Int} (hn : InWord n) :
    ofDecimal (literal n) = .int n := by
  cases n with
  | ofNat n =>
    have : n < 0x10000000000000000 := by simp [InWord] at hn; omega
    simp [ofDecimal, integer?, literal, digitsValue_toDigits, this]
  | negSucc n =>
    have : ¬(0x8000000000000000 < n + 1) := by simp [InWord] at hn; omega
    simp [ofDecimal, integer?, literal, digitsValue_toDigits, this, Int.negSucc_eq]

/-! ## Values -/

/-- A value does not start with a blank or with the bracket that ends an array. -/
def Opening (c : Char) : Prop := isSpace c = false ∧ c ≠ ']'

theorem skipSpace_cons {c : Char} (h : isSpace c = false) (cs : List Char) : skipSpace (c :: cs) = c :: cs := by
  simp [skipSpace, h]

theorem intText_cons (n : Int) : ∃ c cs, intText n = c :: cs ∧ (c = '-' ∨ isDigit c = true) := by
  cases n with
  | ofNat n =>
    cases hd : Nat.toDigits 10 n with
    | nil => exact absurd hd Nat.toDigits_ne_nil
    | cons d ds => exact ⟨d, ds, hd, .inr (isDigit_of_mem_toDigits (n := n) (by rw [hd]; simp))⟩
  | negSucc n => exact ⟨'-', Nat.toDigits 10 (n + 1), rfl, .inl rfl⟩

/-- The first character of a number means nothing else. -/
theorem ne_of_number {c : Char} (h : c = '-' ∨ isDigit c = true) :
    isSpace c = false ∧ c ≠ ']' ∧ c ≠ 'n' ∧ c ≠ 't' ∧ c ≠ 'f' := by
  rcases h with rfl | h
  · decide
  · refine ⟨?_, ?_, ?_, ?_, ?_⟩
    · rw [Bool.eq_false_iff]
      intro hs
      simp only [isSpace, Bool.or_eq_true, beq_iff_eq] at hs
      rcases hs with ((rfl | rfl) | rfl) | rfl <;> exact absurd h (by decide)
    all_goals rintro rfl; exact absurd h (by decide)

section Openings

variable {range : Int → Prop} {indent : Option Nat} {d : Nat}

theorem chars_null : chars indent d .null = 'n' :: "ull".toList := by rw [chars]; decide

theorem chars_true : chars indent d (.bool true) = 't' :: "rue".toList := by rw [chars]; decide

theorem chars_false : chars indent d (.bool false) = 'f' :: "alse".toList := by rw [chars]; decide

theorem chars_cons : ∀ {v : Json}, v.Readable range → ∃ c cs, chars indent d v = c :: cs ∧ Opening c
  | .null, _ => ⟨'n', "ull".toList, chars_null, by decide, by decide⟩
  | .bool true, _ => ⟨'t', "rue".toList, chars_true, by decide, by decide⟩
  | .bool false, _ => ⟨'f', "alse".toList, chars_false, by decide, by decide⟩
  | .int n, _ => by
    obtain ⟨c, cs, heq, hc⟩ := intText_cons n
    exact ⟨c, cs, by simp [chars, heq], (ne_of_number hc).1, (ne_of_number hc).2.1⟩
  | .decimal _, h => absurd h (by simp [Readable])
  | .str s, _ => ⟨'"', s.toList.flatMap escapeChar ++ ['"'], by simp [chars, quote], by decide, by decide⟩
  | .arr [], _ => ⟨'[', [']'], by simp [chars], by decide, by decide⟩
  | .arr (v :: items), _ =>
    ⟨'[', itemChars indent (d + 1) (v :: items) ++ gap indent d ++ [']'], by simp [chars], by decide, by decide⟩
  | .obj [], _ => ⟨'\x7b', ['\x7d'], by simp [chars], by decide, by decide⟩
  | .obj (f :: fields), _ =>
    ⟨'\x7b', fieldChars indent (d + 1) (f :: fields) ++ gap indent d ++ ['\x7d'], by simp [chars], by decide, by decide⟩

theorem itemChars_cons {v : Json} (h : v.Readable range) (items : List Json) :
    ∃ c cs, itemChars indent d (v :: items) = gap indent d ++ c :: cs ∧ Opening c := by
  obtain ⟨c, cs, heq, hc⟩ : ∃ c cs, chars indent d v = c :: cs ∧ Opening c := chars_cons h
  cases items with
  | nil => exact ⟨c, cs, by simp [itemChars, heq], hc⟩
  | cons w items => exact ⟨c, cs ++ ',' :: itemChars indent d (w :: items), by simp [itemChars, heq], hc⟩

theorem fieldChars_cons (k : String) (v : Json) (fields : List (String × Json)) :
    ∃ cs, fieldChars indent d ((k, v) :: fields) = gap indent d ++ '"' :: cs := by
  cases fields <;> exact ⟨_, by simp only [fieldChars, quote, List.cons_append, List.append_assoc]; rfl⟩

end Openings

/-- A key that is new goes to the end. -/
theorem insertField_new (key : String) (v : Json) : ∀ {fields : List (String × Json)}, key ∉ fields.map Prod.fst →
    insertField key v fields = fields ++ [(key, v)]
  | [], _ => rfl
  | (k, w) :: fields, h => by
    simp only [List.map_cons, List.mem_cons, not_or] at h
    rw [insertField, if_neg (Ne.symm h.1), insertField_new key v h.2]
    rfl

theorem new_of_nodup {acc fields : List (String × Json)} {k : String} {v : Json}
    (h : ((acc ++ (k, v) :: fields).map Prod.fst).Nodup) : k ∉ acc.map Prod.fst := by
  intro hm
  simp only [List.map_append, List.nodup_append] at h
  exact h.2.2 k hm k (by simp) rfl

/-! ### One step of the reader -/

section Steps

variable {f : Nat} {c : Char} {cs : List Char}

theorem keyword_append (word rest : List Char) : keyword word (word ++ rest) = .ok rest := by
  induction word with
  | nil => rfl
  | cons c word ih => rw [List.cons_append, keyword, if_pos rfl, ih]

/-- Indents are blanks. -/
theorem skipSpace_gap (cs : List Char) :
    ∀ (indent : Option Nat) (d : Nat), skipSpace (gap indent d ++ cs) = skipSpace cs
  | none, _ => rfl
  | some width, d => by
    refine List.dropWhile_append_of_pos fun c hc => ?_
    rcases List.mem_cons.1 hc with rfl | hc
    · rfl
    · rw [List.eq_of_mem_replicate hc]
      rfl

theorem valueFrom_skip {text text' : List Char} (h : skipSpace text = skipSpace text') :
    valueFrom .strict f text = valueFrom .strict f text' := by
  cases f with
  | zero => rfl
  | succ f => rw [valueFrom, valueFrom, h]

theorem fieldsFrom_skip {text text' : List Char} (h : skipSpace text = skipSpace text') (acc : List (String × Json)) :
    fieldsFrom .strict f acc text = fieldsFrom .strict f acc text' := by
  cases f with
  | zero => rfl
  | succ f => rw [fieldsFrom, fieldsFrom, h]

theorem valueFrom_number (h : c = '-' ∨ isDigit c = true) :
    valueFrom .strict (f + 1) (c :: cs) = (number .strict (c :: cs)).map fun r => (ofDecimal r.1, r.2) := by
  obtain ⟨hs, -, hn, ht, hf⟩ := ne_of_number h
  rw [valueFrom, skipSpace_cons hs]
  simp only [hn, ht, hf, h, ↓reduceIte]

theorem valueFrom_string :
    valueFrom .strict (f + 1) ('"' :: cs) = (string .strict cs).map fun r => (.str r.1, r.2) := by
  rw [valueFrom, skipSpace_cons (by decide)]
  simp [isDigit]

theorem valueFrom_array {text : List Char} (hskip : skipSpace text = c :: cs) (h : Opening c) :
    valueFrom .strict (f + 1) ('[' :: text) = (itemsFrom .strict f [] text).map fun r => (.arr r.1, r.2) := by
  rw [valueFrom, skipSpace_cons (by decide)]
  simp [isDigit, hskip, h.2]

theorem valueFrom_object {text : List Char} (hskip : skipSpace text = '"' :: cs) :
    valueFrom .strict (f + 1) ('\x7b' :: text) = (fieldsFrom .strict f [] text).map fun r => (.obj r.1, r.2) := by
  rw [valueFrom, skipSpace_cons (by decide)]
  simp [isDigit, hskip]

/-- Items go on after a comma. -/
theorem itemsFrom_comma {text : List Char} {v : Json} (h : valueFrom .strict f text = .ok (v, ',' :: cs))
    (acc : List Json) : itemsFrom .strict (f + 1) acc text = itemsFrom .strict f (v :: acc) cs := by
  rw [itemsFrom, h]
  simp [skipSpace_cons (show isSpace ',' = false by decide)]

theorem itemsFrom_close {text rest : List Char} {v : Json} (h : valueFrom .strict f text = .ok (v, rest))
    (hskip : skipSpace rest = ']' :: cs) (acc : List Json) :
    itemsFrom .strict (f + 1) acc text = .ok ((v :: acc).reverse, cs) := by
  rw [itemsFrom, h]
  simp [hskip]

/-- The colon is read, and what may be skipped before the value is left. -/
theorem colon_colonText (indent : Option Nat) (text : List Char) :
    ∃ rest, colon (colonText indent ++ text) = .ok rest ∧ skipSpace rest = skipSpace text := by
  cases indent with
  | none => exact ⟨text, by simp [colon, colonText, skipSpace, isSpace], rfl⟩
  | some width =>
    exact ⟨' ' :: text, by simp [colon, colonText, skipSpace, isSpace], List.dropWhile_cons_of_pos (by decide)⟩

/-- The text of a field, from its key on. -/
theorem quote_append (k : String) (text : List Char) :
    quote k ++ text = '"' :: (k.toList.flatMap escapeChar ++ '"' :: text) := by
  simp [quote]

/-- Fields go on after a comma. -/
theorem fieldsFrom_comma {text : List Char} {v : Json} (h : valueFrom .strict f text = .ok (v, ',' :: cs)) (k : String)
    (indent : Option Nat) (acc : List (String × Json)) :
    fieldsFrom .strict (f + 1) acc (quote k ++ (colonText indent ++ text)) =
      fieldsFrom .strict f (insertField k v acc) cs := by
  obtain ⟨rest, hcolon, hrest⟩ := colon_colonText indent text
  rw [quote_append, fieldsFrom, skipSpace_cons (by decide)]
  simp [string_quote, hcolon, valueFrom_skip hrest, h, skipSpace_cons (show isSpace ',' = false by decide)]

theorem fieldsFrom_close {text rest : List Char} {v : Json} (h : valueFrom .strict f text = .ok (v, rest))
    (hskip : skipSpace rest = '\x7d' :: cs) (k : String) (indent : Option Nat) (acc : List (String × Json)) :
    fieldsFrom .strict (f + 1) acc (quote k ++ (colonText indent ++ text)) = .ok (insertField k v acc, cs) := by
  obtain ⟨rest', hcolon, hrest'⟩ := colon_colonText indent text
  rw [quote_append, fieldsFrom, skipSpace_cons (by decide)]
  simp [string_quote, hcolon, valueFrom_skip hrest', h, hskip]

end Steps

/-! ### Whole values -/

section Values

variable {indent : Option Nat}

/-- What is left of the text around items or fields: the bracket that ends them. -/
theorem skipSpace_gap_cons {c : Char} (h : isSpace c = false) (indent : Option Nat) (d : Nat) (cs : List Char) :
    skipSpace (gap indent d ++ c :: cs) = c :: cs := by
  rw [skipSpace_gap, skipSpace_cons h]

mutual
/-- The text of a value is read as the value, and what stands after it is left. -/
theorem valueFrom_chars : ∀ (v : Json) (d f : Nat) (rest : List Char), v.Readable InWord →
    (chars indent d v).length ≤ f → Closed rest → valueFrom .strict f (chars indent d v ++ rest) = .ok (v, rest)
  | v, d, 0, _, hv, hf, _ => by
    obtain ⟨c, cs, heq, -⟩ : ∃ c cs, chars indent d v = c :: cs ∧ Opening c := chars_cons hv
    simp [heq] at hf
  | .null, _, f + 1, rest, _, _, _ => by
    rw [chars_null, List.cons_append, valueFrom, skipSpace_cons (by decide)]
    simp only [↓reduceIte, keyword_append]
    rfl
  | .bool true, _, f + 1, rest, _, _, _ => by
    rw [chars_true, List.cons_append, valueFrom, skipSpace_cons (by decide)]
    simp only [Char.reduceEq, ↓reduceIte, keyword_append]
    rfl
  | .bool false, _, f + 1, rest, _, _, _ => by
    rw [chars_false, List.cons_append, valueFrom, skipSpace_cons (by decide)]
    simp only [Char.reduceEq, ↓reduceIte, keyword_append]
    rfl
  | .int n, _, f + 1, rest, hn, _, hr => by
    obtain ⟨c, cs, heq, hc⟩ := intText_cons n
    have hnum := number_intText hn hr
    rw [heq, List.cons_append] at hnum
    rw [chars, heq, List.cons_append, valueFrom_number hc, hnum]
    simp [Except.map, ofDecimal_literal hn]
  | .decimal _, _, _ + 1, _, h, _, _ => absurd h (by simp [Readable])
  | .str s, _, f + 1, rest, _, _, _ => by
    have hs := string_quote s rest
    simp only [chars, quote, List.cons_append, List.append_assoc, List.nil_append, valueFrom_string, hs, Except.map]
  | .arr [], _, f + 1, rest, _, _, _ => by simp [chars, valueFrom, skipSpace, isSpace, isDigit]
  | .arr (v :: items), d, f + 1, rest, h, hf, _ => by
    simp only [Readable] at h
    have hitems := itemsFrom_itemChars v items (d + 1) d f [] rest h
      (by simp only [chars, List.length_cons, List.length_append, List.length_nil] at hf; omega)
    obtain ⟨c, cs, heq, hc⟩ : ∃ c cs,
        itemChars indent (d + 1) (v :: items) = gap indent (d + 1) ++ c :: cs ∧ Opening c := itemChars_cons h.1 items
    have hskip : skipSpace (itemChars indent (d + 1) (v :: items) ++ (gap indent d ++ ']' :: rest)) =
        c :: (cs ++ (gap indent d ++ ']' :: rest)) := by
      rw [heq, List.append_assoc, List.cons_append, skipSpace_gap_cons hc.1]
    simp only [chars, List.cons_append, List.append_assoc, List.nil_append]
    rw [valueFrom_array hskip hc, hitems]
    rfl
  | .obj [], _, f + 1, rest, _, _, _ => by simp [chars, valueFrom, skipSpace, isSpace, isDigit]
  | .obj ((k, v) :: fields), d, f + 1, rest, h, hf, _ => by
    simp only [Readable] at h
    have hfields := fieldsFrom_fieldChars k v fields (d + 1) d f [] rest h.2 (by simpa using h.1)
      (by simp only [chars, List.length_cons, List.length_append, List.length_nil] at hf; omega)
    obtain ⟨cs, heq⟩ : ∃ cs, fieldChars indent (d + 1) ((k, v) :: fields) = gap indent (d + 1) ++ '"' :: cs :=
      fieldChars_cons k v fields
    have hskip : skipSpace (fieldChars indent (d + 1) ((k, v) :: fields) ++ (gap indent d ++ '\x7d' :: rest)) =
        '"' :: (cs ++ (gap indent d ++ '\x7d' :: rest)) := by
      rw [heq, List.append_assoc, List.cons_append, skipSpace_gap_cons (by decide)]
    simp only [chars, List.cons_append, List.append_assoc, List.nil_append]
    rw [valueFrom_object hskip, hfields]
    rfl
termination_by structural _ _ f => f

/-- Items are read up to the bracket that ends them, which may stand at another depth. -/
theorem itemsFrom_itemChars : ∀ (v : Json) (items : List Json) (d d' f : Nat) (acc : List Json) (rest : List Char),
    AllReadable InWord (v :: items) → (itemChars indent d (v :: items)).length + 1 ≤ f →
      itemsFrom .strict f acc (itemChars indent d (v :: items) ++ (gap indent d' ++ ']' :: rest)) =
        .ok (acc.reverse ++ v :: items, rest)
  | v, items, _, _, 0, _, _, _, hf => by omega
  | v, [], d, d', f + 1, acc, rest, h, hf => by
    simp only [AllReadable, itemChars, List.length_append] at h hf ⊢
    have hv := valueFrom_chars v d f (gap indent d' ++ ']' :: rest) h.1 (by omega)
      (Closed.gap_append (.cons (by decide)) indent d')
    rw [List.append_assoc, itemsFrom_close ((valueFrom_skip (skipSpace_gap _ indent d)).trans hv)
      (skipSpace_gap_cons (by decide) indent d' rest)]
    simp
  | v, w :: items, d, d', f + 1, acc, rest, h, hf => by
    simp only [AllReadable, itemChars, List.length_append, List.length_cons] at h hf
    have hv := valueFrom_chars v d f (',' :: (itemChars indent d (w :: items) ++ (gap indent d' ++ ']' :: rest))) h.1
      (by omega) (.cons (by decide))
    have hitems := itemsFrom_itemChars w items d d' f (v :: acc) rest h.2 (by omega)
    simp only [itemChars, List.append_assoc, List.cons_append]
    rw [itemsFrom_comma ((valueFrom_skip (skipSpace_gap _ indent d)).trans hv), hitems]
    simp
termination_by structural _ _ _ _ f => f

theorem fieldsFrom_fieldChars : ∀ (k : String) (v : Json) (fields : List (String × Json)) (d d' f : Nat)
    (acc : List (String × Json)) (rest : List Char), FieldsReadable InWord ((k, v) :: fields) →
      ((acc ++ (k, v) :: fields).map Prod.fst).Nodup → (fieldChars indent d ((k, v) :: fields)).length ≤ f →
      fieldsFrom .strict f acc (fieldChars indent d ((k, v) :: fields) ++ (gap indent d' ++ '\x7d' :: rest)) =
        .ok (acc ++ (k, v) :: fields, rest)
  | k, v, fields, d, _, 0, _, _, _, _, hf => by
    obtain ⟨cs, heq⟩ : ∃ cs, fieldChars indent d ((k, v) :: fields) = gap indent d ++ '"' :: cs :=
      fieldChars_cons k v fields
    simp [heq] at hf
  | k, v, [], d, d', f + 1, acc, rest, h, hk, hf => by
    simp only [FieldsReadable, fieldChars, List.length_append] at h hf ⊢
    have hquote : 0 < (quote k).length := by simp [quote]
    have hv := valueFrom_chars v d f (gap indent d' ++ '\x7d' :: rest) h.1 (by omega)
      (Closed.gap_append (.cons (by decide)) indent d')
    simp only [List.append_assoc]
    rw [fieldsFrom_skip (skipSpace_gap _ indent d),
      fieldsFrom_close hv (skipSpace_gap_cons (by decide) indent d' rest), insertField_new k v (new_of_nodup hk)]
  | k, v, (k', v') :: fields, d, d', f + 1, acc, rest, h, hk, hf => by
    simp only [FieldsReadable, fieldChars, List.length_append, List.length_cons] at h hf
    have hv := valueFrom_chars v d f
      (',' :: (fieldChars indent d ((k', v') :: fields) ++ (gap indent d' ++ '\x7d' :: rest))) h.1 (by omega)
      (.cons (by decide))
    have hfields := fieldsFrom_fieldChars k' v' fields d d' f (acc ++ [(k, v)]) rest h.2 (by simpa using hk) (by omega)
    simp only [fieldChars, List.append_assoc, List.cons_append]
    rw [fieldsFrom_skip (skipSpace_gap _ indent d), fieldsFrom_comma hv, insertField_new k v (new_of_nodup hk), hfields]
    simp
termination_by structural _ _ _ _ _ f => f
end

/-- The text of a value at the start of a text is read as the value, however it is indented. -/
theorem value_chars {v : Json} (h : v.Readable InWord) (indent : Option Nat) (rest : List Char) (hr : Closed rest) :
    value .strict (chars indent 0 v ++ rest) = .ok (v, rest) := by
  have hle : (chars indent 0 v).length ≤ (chars indent 0 v ++ rest).length := by simp
  exact valueFrom_chars v 0 _ rest h (by omega) hr

end Values

/-- **A value is read back from its text.** -/
theorem parse_compact {v : Json} (h : v.Readable InWord) : parse v.compact = .ok v := by
  have hv := value_chars h none [] (.inl rfl)
  rw [List.append_nil] at hv
  simp [parse, compact, String.toList_ofList, hv, skipSpace]

/-- A value is read back from its indented text with a newline after it. -/
theorem parse_pretty {v : Json} (h : v.Readable InWord) : parse (v.pretty ++ "\n") = .ok v := by
  have hv := value_chars h (some 2) ['\n'] (.cons (by decide))
  simp [parse, pretty, String.toList_append, String.toList_ofList, hv, skipSpace, isSpace]

/-! ## Lines -/

section Lines

variable {range : Int → Prop}

theorem newline_not_mem_escapeChar (c : Char) : '\n' ∉ escapeChar c := by
  unfold escapeChar
  split
  · decide
  split
  · decide
  split
  · decide
  split
  · decide
  split
  · decide
  split
  · decide
  split
  · decide
  split
  · simp [hex4]
  · simp_all [eq_comm]

theorem newline_not_mem_quote (s : String) : '\n' ∉ quote s := by
  simp only [quote, List.cons_append, List.mem_cons, List.mem_append, List.mem_flatMap, List.not_mem_nil, or_false]
  rintro (h | ⟨c, -, h⟩ | h)
  · exact absurd h (by decide)
  · exact newline_not_mem_escapeChar c h
  · exact absurd h (by decide)

theorem newline_not_mem_toDigits (n : Nat) : '\n' ∉ Nat.toDigits 10 n :=
  fun h => absurd (isDigit_of_mem_toDigits h) (by decide)

mutual
theorem newline_not_mem_chars : ∀ {v : Json} (d : Nat), v.Readable range → '\n' ∉ chars none d v
  | .null, _, _ => by rw [chars_null]; decide
  | .bool true, _, _ => by rw [chars_true]; decide
  | .bool false, _, _ => by rw [chars_false]; decide
  | .int (.ofNat n), _, _ => newline_not_mem_toDigits n
  | .int (.negSucc n), _, _ => by simpa [chars, intText] using newline_not_mem_toDigits (n + 1)
  | .decimal _, _, h => absurd h (by simp [Readable])
  | .str s, _, _ => newline_not_mem_quote s
  | .arr [], _, _ => by simp [chars]
  | .arr (v :: items), d, h => by
    simp only [Readable] at h
    simpa [chars, gap] using newline_not_mem_itemChars (d + 1) h
  | .obj [], _, _ => by simp [chars]
  | .obj (f :: fields), d, h => by
    simp only [Readable] at h
    simpa [chars, gap] using newline_not_mem_fieldChars (d + 1) h.2

theorem newline_not_mem_itemChars : ∀ {items : List Json} (d : Nat), AllReadable range items →
    '\n' ∉ itemChars none d items
  | [], _, _ => by simp [itemChars]
  | [v], d, h => by
    simp only [AllReadable] at h
    simpa [itemChars, gap] using newline_not_mem_chars d h.1
  | v :: w :: items, d, h => by
    rw [AllReadable] at h
    have hv := newline_not_mem_chars d h.1
    have hitems := newline_not_mem_itemChars d h.2
    simp [itemChars, gap, hv, hitems]

theorem newline_not_mem_fieldChars : ∀ {fields : List (String × Json)} (d : Nat), FieldsReadable range fields →
    '\n' ∉ fieldChars none d fields
  | [], _, _ => by simp [fieldChars]
  | [(k, v)], d, h => by
    simp only [FieldsReadable] at h
    have hv := newline_not_mem_chars d h.1
    simp [fieldChars, gap, colonText, newline_not_mem_quote, hv]
  | (k, v) :: (k', v') :: fields, d, h => by
    rw [FieldsReadable] at h
    have hv := newline_not_mem_chars d h.1
    have hfields := newline_not_mem_fieldChars d h.2
    simp [fieldChars, gap, colonText, newline_not_mem_quote, hv, hfields]
end

/-- The text of a value is one line. -/
theorem newline_not_mem_compact {v : Json} (h : v.Readable range) : '\n' ∉ v.compact.toList := by
  rw [compact, String.toList_ofList]
  exact newline_not_mem_chars 0 h

end Lines

end SyntaxView.Json
