import SyntaxView.Proofs.Toml.Text
import SyntaxView.Toml.Reader

/-!
# Reading values back

A value that is written as the program writes it is read as that value, whatever follows it (`Written`): texts
(`written_text`), truth values (`written_bool`), numbers (`written_nat`) and arrays of written values (`written_array`).

The fuel for the items of an array is measured by the length of the text: each item takes at least one character.
-/

namespace SyntaxView.Toml

variable {e : Edition} {depth : Nat}

/-! ## Texts -/

/-- What follows a value: a line end, a comma or a closing bracket. -/
def EndsValue (rest : List Char) : Prop := ∃ c cs, rest = c :: cs ∧ (c = '\n' ∨ c = ',' ∨ c = ']')

/-- A character that a value starts with is no blank, no comment and no bracket but an opening one. -/
def startsValue (c : Char) : Bool := !isSpace c && c != '\n' && c != '\r' && c != '#' && c != ']'

/-- The text is read as the value, whatever follows it. -/
structure Written (e : Edition) (depth : Nat) (text : List Char) (v : Data) : Prop where
  head : ∃ c cs, text = c :: cs ∧ startsValue c = true
  reads : ∀ rest, EndsValue rest → value e depth (text ++ rest) = some (v, rest)

theorem EndsValue.ends {rest : List Char} (h : EndsValue rest) {q : Char} (hq : q ≠ '\n' ∧ q ≠ ',' ∧ q ≠ ']') :
    Ends q rest := by
  obtain ⟨c, cs, rfl, rfl | rfl | rfl⟩ := h
  · exact fun h => hq.1 (Option.some.inj h).symm
  · exact fun h => hq.2.1 (Option.some.inj h).symm
  · exact fun h => hq.2.2 (Option.some.inj h).symm

/-- A value without brackets is read at every depth. -/
theorem value_eq_scalarValue {c : Char} (harray : c ≠ '[') (htable : c ≠ '\x7b') (cs : List Char) :
    value e depth (c :: cs) = scalarValue e (c :: cs) := by
  cases depth with
  | zero => rw [value]
  | succ depth => rw [value] <;> simp [harray, htable]

theorem written_text (cs : List Char) : Written e depth (writeChars cs) (.text (String.ofList cs)) := by
  obtain ⟨q, body, hhead, hq⟩ : ∃ q body, writeChars cs = q :: body ∧ (q = '"' ∨ q = '\'') := by
    have hfits := fits_formOf cs
    change ∃ q body, writeIn (formOf cs) cs = q :: body ∧ _
    generalize formOf cs = f at hfits
    cases hfits with
    | basic => exact ⟨_, _, rfl, .inl rfl⟩
    | basicLines => exact ⟨_, _, rfl, .inl rfl⟩
    | literal => exact ⟨_, _, rfl, .inr rfl⟩
    | literalLines => exact ⟨_, _, rfl, .inr rfl⟩
  constructor
  · refine ⟨q, body, hhead, ?_⟩
    rcases hq with rfl | rfl <;> decide
  · intro rest hrest
    have htext : text? e (writeChars cs ++ rest) = some (String.ofList cs, rest) :=
      text?_writeChars cs (hrest.ends (by decide)) (hrest.ends (by decide))
    rw [hhead, List.cons_append] at htext ⊢
    rcases hq with rfl | rfl
    · rw [value_eq_scalarValue (by decide) (by decide), scalarValue, htext]
      rfl
    · rw [value_eq_scalarValue (by decide) (by decide), scalarValue, htext]
      rfl

/-! ## Words -/

/-- A character of a class is none of those outside it. -/
theorem ne_of_class {isIn : Char → Bool} {c : Char} (hc : isIn c = true) {others : List Char}
    (hothers : others.any isIn = false) : ∀ x ∈ others, c ≠ x := by
  rintro x hx rfl
  rw [List.any_eq_false] at hothers
  exact hothers c hx hc

/-- A word up to the end of a value is the next word, unless it is a date. -/
theorem nextWord_append {word rest : List Char} (hword : ∀ c ∈ word, endsWord c = false) (hdate : date? word ≠ some [])
    (hrest : EndsValue rest) : nextWord (word ++ rest) = (word, rest) := by
  have hend : ∃ c cs, rest = c :: cs ∧ endsWord c = true := by
    obtain ⟨c, cs, rfl, rfl | rfl | rfl⟩ := hrest
    · exact ⟨_, _, rfl, by decide⟩
    · exact ⟨_, _, rfl, by decide⟩
    · exact ⟨_, _, rfl, by decide⟩
  obtain ⟨c, cs, rfl, hc⟩ := hend
  have htake : (word ++ c :: cs).takeWhile (!endsWord ·) = word := by
    rw [List.takeWhile_append_of_pos (by simpa using hword), List.takeWhile_cons_of_neg (by simp [hc]), List.append_nil]
  have hdrop : (word ++ c :: cs).dropWhile (!endsWord ·) = c :: cs := by
    rw [List.dropWhile_append_of_pos (by simpa using hword), List.dropWhile_cons_of_neg (by simp [hc])]
  unfold nextWord
  rw [htake, hdrop]
  dsimp only
  split
  · rename_i h _
    exact absurd h hdate
  · rfl

/-- A character that a word starts with is neither a quote nor an opening bracket. -/
def startsWord (c : Char) : Bool := startsValue c && c != '[' && c != '\x7b' && c != '"' && c != '\''

/-- A word that is a value is written as it stands. -/
theorem written_word {word : List Char} {v : Data} (hhead : ∃ c cs, word = c :: cs ∧ startsWord c = true)
    (hword : ∀ c ∈ word, endsWord c = false) (hdate : date? word ≠ some []) (hv : wordValue? e word = some v) :
    Written e depth word v := by
  obtain ⟨c, cs, hc, hstarts⟩ := hhead
  simp only [startsWord, Bool.and_eq_true, bne_iff_ne] at hstarts
  obtain ⟨⟨⟨⟨hstarts, harray⟩, htable⟩, hdouble⟩, hsingle⟩ := hstarts
  refine ⟨⟨c, cs, hc, hstarts⟩, fun rest hrest => ?_⟩
  have hnext := nextWord_append hword hdate hrest
  rw [hc, List.cons_append] at hnext ⊢
  rw [value_eq_scalarValue harray htable, scalarValue, hnext, ← hc, hv]
  · rfl
  · exact fun _ h => hdouble (List.cons.inj h).1
  · exact fun _ h => hsingle (List.cons.inj h).1

theorem written_bool (b : Bool) : Written e depth (writeBool b).toList (.bool b) := by
  cases b with
  | false => exact written_word ⟨'f', _, rfl, by decide⟩ (by simp [writeBool, endsWord]) (by decide) rfl
  | true => exact written_word ⟨'t', _, rfl, by decide⟩ (by simp [writeBool, endsWord]) (by decide) rfl

/-! ## Numbers -/

section Numbers

variable {ds : List Char}

theorem startsWord_of_isDigit {c : Char} (hc : isDigit c = true) : startsWord c = true := by
  have hne : ∀ x ∈ [' ', '\t', '\n', '\r', '#', ']', '[', '\x7b', '"', '\''], c ≠ x := ne_of_class hc (by decide)
  simp only [List.mem_cons, List.not_mem_nil, or_false, forall_eq_or_imp, forall_eq] at hne
  simp [startsWord, startsValue, isSpace, hne]

theorem endsWord_of_isDigit {c : Char} (hc : isDigit c = true) : endsWord c = false := by
  have hne : ∀ x ∈ [' ', '\t', '\n', '\r', '#', ',', ']', '\x7d'], c ≠ x := ne_of_class hc (by decide)
  simp only [List.mem_cons, List.not_mem_nil, or_false, forall_eq_or_imp, forall_eq] at hne
  simp [endsWord, hne]

/-- What follows four characters of a date is a hyphen, which is no digit. -/
theorem date?_digits (h : ∀ c ∈ ds, isDigit c = true) : date? ds = none := by
  unfold date?
  split
  · exact absurd (h '-' (by simp)) (by decide)
  · rfl

theorem time?_digits (h : ∀ c ∈ ds, isDigit c = true) : time? e ds = none := by
  unfold time? twoDigits?
  split
  · rename_i a b rest
    dsimp only
    split
    · simp only [Option.bind_eq_bind, Option.bind_some]
      split
      · exact absurd (h ':' (by simp)) (by decide)
      · rfl
    · rfl
  · rfl

theorem ungroup_digits (hne : ds ≠ []) (h : ∀ c ∈ ds, isDigit c = true) : ungroup isDigit ds = some ds := by
  induction ds with
  | nil => exact absurd rfl hne
  | cons c ds ih =>
    have hc : isDigit c = true := h c List.mem_cons_self
    cases ds with
    | nil => simp [ungroup, hc]
    | cons d ds =>
      have hd : d ≠ '_' := by
        rintro rfl
        exact absurd (h '_' (by simp)) (by decide)
      rw [ungroup, if_pos hc, ih nofun fun x hx => h x (List.mem_cons_of_mem c hx)]
      · rfl
      · exact nofun
      · exact fun _ h => hd (List.cons.inj h).1

/-- A number within the limits of the edition is read as it was written. -/
theorem wordValue?_nat {n : Nat} (hn : e.holds n = true) : wordValue? e (Nat.toDigits 10 n) = some (.int n) := by
  have hdigits : ∀ c ∈ Nat.toDigits 10 n, isDigit c = true := fun c => Json.isDigit_of_mem_toDigits
  have hzero : ∀ {d : Char} {ds : List Char}, Nat.toDigits 10 n ≠ '0' :: d :: ds := Json.toDigits_ne_zero_cons n
  have hvalue := Json.digitsValue_toDigits n
  have hne : Nat.toDigits 10 n ≠ [] := Nat.toDigits_ne_nil
  generalize Nat.toDigits 10 n = ds at *
  have hword : ∀ word : String, 't' ∈ word.toList ∨ 'f' ∈ word.toList → ds ≠ word.toList := by
    rintro word hletter rfl
    rcases hletter with hletter | hletter
    · exact absurd (hdigits _ hletter) (by decide)
    · exact absurd (hdigits _ hletter) (by decide)
  have hwhole : wholeDigits? ds = some ds := by
    unfold wholeDigits?
    rw [ungroup_digits hne hdigits]
    split
    · rename_i h
      exact absurd (Option.some.inj h) hzero
    · rfl
  have hsigned : signed ds = (false, ds) := by
    unfold signed
    split
    · exact absurd (hdigits '+' (by simp)) (by decide)
    · exact absurd (hdigits '-' (by simp)) (by decide)
    · rfl
  have hinteger : integer? ds = some (n : Int) := by
    unfold integer?
    split
    · exact absurd rfl hzero
    · exact absurd rfl hzero
    · exact absurd rfl hzero
    · rw [hsigned]
      simp [hwhole, hvalue]
  have hdateTime : isDateTime e ds = false := by
    unfold isDateTime
    rw [date?_digits hdigits, time?_digits hdigits]
    rfl
  unfold wordValue?
  rw [if_neg (hword "true" (by decide)), if_neg (hword "false" (by decide)), hdateTime, hinteger]
  simp [hn]

theorem written_nat {n : Nat} (hn : e.holds n = true) : Written e depth (Nat.repr n).toList (.int n) := by
  have hrepr : (Nat.repr n).toList = Nat.toDigits 10 n := by simp [Nat.repr]
  have hdigits : ∀ c ∈ Nat.toDigits 10 n, isDigit c = true := fun c => Json.isDigit_of_mem_toDigits
  rw [hrepr]
  refine written_word ?_ ?_ ?_ (wordValue?_nat hn)
  · cases h : Nat.toDigits 10 n with
    | nil => exact absurd h Nat.toDigits_ne_nil
    | cons c cs => exact ⟨c, cs, rfl, startsWord_of_isDigit (hdigits c (h ▸ List.mem_cons_self))⟩
  · exact fun c hc => endsWord_of_isDigit (hdigits c hc)
  · rw [date?_digits hdigits]
    exact nofun

end Numbers

/-! ## Arrays -/

/-- Parts of a text that are not empty are not more than its characters. -/
theorem length_le_flatten {parts : List (List Char)} (h : ∀ p ∈ parts, p ≠ []) :
    parts.length ≤ parts.flatten.length := by
  induction parts with
  | nil => exact Nat.le_refl 0
  | cons p parts ih =>
    have hp : 0 < p.length := List.length_pos_iff.mpr (h p List.mem_cons_self)
    have hparts := ih fun q hq => h q (List.mem_cons_of_mem p hq)
    rw [List.flatten_cons, List.length_append, List.length_cons]
    omega

theorem skipGap_start {c : Char} (hc : startsValue c = true) (cs : List Char) :
    skipGap false (c :: cs) = some (c :: cs) := by
  simp only [startsValue, Bool.and_eq_true, Bool.not_eq_true', bne_iff_ne] at hc
  obtain ⟨⟨⟨⟨hspace, hline⟩, hreturn⟩, hcomment⟩, -⟩ := hc
  rw [skipGap]
  · simp [hspace, hcomment]
  · exact fun h => hline h
  · exact fun _ h => absurd h hreturn

/-- An item on a line of its own. -/
def itemLine (text : List Char) : List Char := "    ".toList ++ (text ++ ",\n".toList)

/-- The items of an array, with what they are read as. -/
abbrev Items := List (List Char × Data)

/-- The first item of an array, with a comma or the closing bracket after it. -/
theorem arrayItems_item {text : List Char} {v : Data} (h : Written e depth text v) (n : Nat) {cs rest : List Char}
    (hcs : skipGap false cs = skipGap false (text ++ rest)) :
    (∀ tail, rest = ',' :: tail → arrayItems (value e depth) (n + 1) cs =
      (arrayItems (value e depth) n tail).map fun r => (v :: r.1, r.2)) ∧
    ∀ tail, rest = ']' :: tail → arrayItems (value e depth) (n + 1) cs = some ([v], tail) := by
  obtain ⟨c, body, hbody, hc⟩ := h.head
  have hbracket : c ≠ ']' := by
    simp only [startsValue, Bool.and_eq_true, bne_iff_ne] at hc
    exact hc.2
  -- Once the value is read, what follows it decides.
  have hread (hrest : EndsValue rest) : ∃ after : List Char → Option (List Data × List Char),
      arrayItems (value e depth) (n + 1) cs = (skipGap false rest).bind after ∧
      (∀ tail, after (',' :: tail) = (arrayItems (value e depth) n tail).map fun r => (v :: r.1, r.2)) ∧
      ∀ tail, after (']' :: tail) = some ([v], tail) := by
    have hvalue := h.reads rest hrest
    rw [hbody, List.cons_append] at hcs hvalue
    rw [arrayItems, hcs, skipGap_start hc]
    simp only [Option.bind_eq_bind, Option.bind_some]
    split
    · rename_i h
      exact absurd (List.cons.inj h).1 hbracket
    · rw [hvalue]
      exact ⟨_, rfl, fun tail => Option.map_eq_bind.symm, fun tail => rfl⟩
  constructor
  · rintro tail rfl
    obtain ⟨after, hafter, hcomma, -⟩ := hread ⟨',', tail, rfl, .inr (.inl rfl)⟩
    exact hafter.trans (hcomma tail)
  · rintro tail rfl
    obtain ⟨after, hafter, -, hclose⟩ := hread ⟨']', tail, rfl, .inr (.inr rfl)⟩
    exact hafter.trans (hclose tail)

theorem arrayItems_newline (n : Nat) (cs : List Char) :
    arrayItems (value e depth) n ('\n' :: cs) = arrayItems (value e depth) n cs := by
  cases n <;> rfl

/-- Items on lines of their own are read one after the other. -/
theorem arrayItems_lines (rest : List Char) : ∀ (items : Items) (n : Nat),
    (∀ i ∈ items, Written e depth i.1 i.2) → items.length < n →
      arrayItems (value e depth) n ((items.map fun i => itemLine i.1).flatten ++ ']' :: rest) =
        some (items.map Prod.snd, rest)
  | _, 0, _, hn => absurd hn (Nat.not_lt_zero _)
  | [], n + 1, _, _ => rfl
  | (text, v) :: items, n + 1, h, hn => by
    have hwritten : Written e depth text v := h (text, v) List.mem_cons_self
    have hrest := arrayItems_lines rest items n (fun i hi => h i (List.mem_cons_of_mem _ hi)) (Nat.lt_of_succ_lt_succ hn)
    have hgap (after : List Char) :
        skipGap false (itemLine text ++ after) = skipGap false (text ++ ',' :: '\n' :: after) := by
      simp [itemLine, skipGap, isSpace]
    rw [List.map_cons, List.flatten_cons, List.append_assoc, (arrayItems_item hwritten n (hgap _)).1 _ rfl,
      arrayItems_newline, hrest]
    rfl

/-- Two items or more are written on lines of their own. -/
theorem toList_lines (items : Items) :
    ("[\n" ++ String.join ((items.map fun i => String.ofList i.1).map fun v => "    " ++ v ++ ",\n") ++ "]").toList =
      '[' :: '\n' :: ((items.map fun i => itemLine i.1).flatten ++ [']']) := by
  induction items with
  | nil => rfl
  | cons i items ih => simp_all [itemLine]

theorem written_array (items : Items) (h : ∀ i ∈ items, Written e depth i.1 i.2) :
    Written e (depth + 1) (writeArray (items.map fun i => String.ofList i.1)).toList (.list (items.map Prod.snd)) := by
  have hvalue (cs : List Char) : value e (depth + 1) ('[' :: cs) =
    (arrayItems (value e depth) (cs.length + 1) cs).map fun r => (.list r.1, r.2) := rfl
  match items, h with
  | [], _ => exact ⟨⟨'[', _, rfl, by decide⟩, fun rest _ => rfl⟩
  | [(text, v)], h =>
    have hwritten : Written e depth text v := h (text, v) List.mem_cons_self
    have htext : (writeArray [String.ofList text]).toList = '[' :: (text ++ [']']) := by simp [writeArray]
    refine ⟨⟨'[', _, htext, by decide⟩, fun rest _ => ?_⟩
    have hitem := (arrayItems_item hwritten (text ++ ']' :: rest).length rfl).2 rest rfl
    change value e (depth + 1) ((writeArray [String.ofList text]).toList ++ rest) = _
    rw [htext, List.cons_append, List.append_assoc, List.singleton_append, hvalue, hitem]
    rfl
  | first :: second :: items, h =>
    have htext := toList_lines (first :: second :: items)
    refine ⟨⟨'[', _, htext, by decide⟩, fun rest _ => ?_⟩
    have hwritten : (writeArray ((first :: second :: items).map fun i => String.ofList i.1)).toList = _ := htext
    rw [hwritten]
    generalize (first :: second :: items) = all at h
    have hlength : (all.map fun i => itemLine i.1).length ≤ (all.map fun i => itemLine i.1).flatten.length :=
      length_le_flatten (List.forall_mem_map.mpr fun i _ => List.cons_ne_nil _ _)
    rw [List.cons_append, List.cons_append, List.append_assoc, List.singleton_append, hvalue, arrayItems_newline,
      arrayItems_lines rest all _ h]
    · rfl
    · rw [List.length_map] at hlength
      simp only [List.length_cons, List.length_append]
      omega

end SyntaxView.Toml
