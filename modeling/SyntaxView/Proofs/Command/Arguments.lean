import Mathlib.Algebra.Ring.Parity
import SyntaxView.Command.Basic

/-!
# The words of a compile command that a parser library is given

`parserArguments` goes through the words of a command once and lets `-o` take the next word along. What it keeps can be
told word by word from positions: a word is taken by an output option exactly if the run of words `-o` right before it
has odd length (`IsTaken`), and of the others those stay that are not for the driver (`IsNoise`).

- one pass and the positions agree from any place on that has an even run before it (`keptAfter_eq_dropDriverWords`);
- a list without words for the driver is kept as it is (`dropDriverWords_eq_self`);
- main result: `parserArguments_keeps_positions`.
-/

namespace SyntaxView.Command

/-! ## Positions -/

/-- The length of the run of words `-o` that a list starts with. -/
def outputRun (words : List String) : Nat := (words.takeWhile (· == "-o")).length

/-- The word at a position is taken by an output option: the longest run of words `-o` that ends right before it has odd
length. -/
def IsTaken (words : List String) (i : Nat) : Prop := Odd (outputRun (words.take i).reverse)

instance (words : List String) (i : Nat) : Decidable (IsTaken words i) := inferInstanceAs (Decidable (Odd _))

/-- The word names the source file of a command, as it stands or from the directory. -/
def NamesSource (c : Command) (word : String) : Prop :=
  (Path.mk word).components = c.file.components ∨ (c.directory.join ⟨word⟩).components = c.file.components

/-- The word is for the compiler's driver: it is `-c`, starts with `-o` or names the source file. -/
def IsNoise (c : Command) (word : String) : Prop :=
  word = "-c" ∨ "-o".toList <+: word.toList ∨ c.NamesSource word

theorem isDriverWord_iff (c : Command) (word : String) : c.isDriverWord word = true ↔ c.IsNoise word := by
  simp [isDriverWord, IsNoise, NamesSource, isSource, Path.same, or_assoc]

instance (c : Command) (word : String) : Decidable (c.IsNoise word) := decidable_of_iff _ (c.isDriverWord_iff word)

/-- The words, in order, that are neither taken by an output option nor for the driver. -/
def keptWords (c : Command) (words : List String) : List String :=
  (words.zipIdx.filter fun p => ¬ IsTaken words p.2 ∧ ¬ c.IsNoise p.1).map Prod.fst

/-! ## One pass -/

theorem outputRun_cons (word : String) (words : List String) :
    outputRun (word :: words) = if word = "-o" then outputRun words + 1 else 0 := by
  unfold outputRun
  by_cases h : word = "-o"
  · simp [h]
  · simp [h]

theorem isNoise_output (c : Command) : c.IsNoise "-o" := .inr (.inl (List.prefix_refl _))

/-- Whether the word after some others is taken depends on the run that they end with. -/
theorem isTaken_append (before rest : List String) :
    IsTaken (before.reverse ++ rest) before.length ↔ Odd (outputRun before) := by
  rw [IsTaken, ← List.length_reverse, List.take_left, List.reverse_reverse]

/-- The words among `rest` that stay, where the words of `before` stand before them, last first. -/
def keptAfter (c : Command) (before rest : List String) : List String :=
  ((rest.zipIdx before.length).filter fun p => ¬ IsTaken (before.reverse ++ rest) p.2 ∧ ¬ c.IsNoise p.1).map Prod.fst

theorem keptAfter_cons (c : Command) (before : List String) (word : String) (rest : List String) :
    c.keptAfter before (word :: rest) =
      (if Odd (outputRun before) ∨ c.IsNoise word then [] else [word]) ++ c.keptAfter (word :: before) rest := by
  have htaken := isTaken_append before (word :: rest)
  have hsplit : before.reverse ++ word :: rest = (word :: before).reverse ++ rest := by simp
  unfold keptAfter
  rw [List.zipIdx_cons, List.filter_cons]
  by_cases hword : Odd (outputRun before) ∨ c.IsNoise word
  · have hnot : ¬ (¬ IsTaken (before.reverse ++ word :: rest) before.length ∧ ¬ c.IsNoise word) := by
      rw [htaken]
      tauto
    rw [if_neg (by simpa using hnot), if_pos hword, hsplit]
    rfl
  · have hkeep : ¬ IsTaken (before.reverse ++ word :: rest) before.length ∧ ¬ c.IsNoise word := by
      rw [htaken]
      tauto
    rw [if_pos (by simpa using hkeep), if_neg hword, hsplit]
    rfl

theorem keptAfter_noise {c : Command} {word : String} (h : c.IsNoise word) (before rest : List String) :
    c.keptAfter before (word :: rest) = c.keptAfter (word :: before) rest := by
  rw [keptAfter_cons, if_pos (.inr h), List.nil_append]

theorem keptAfter_odd (c : Command) {before : List String} (h : Odd (outputRun before)) (word : String)
    (rest : List String) : c.keptAfter before (word :: rest) = c.keptAfter (word :: before) rest := by
  rw [keptAfter_cons, if_pos (.inl h), List.nil_append]

theorem keptAfter_word {c : Command} {before : List String} {word : String} (heven : Even (outputRun before))
    (h : ¬ c.IsNoise word) (rest : List String) :
    c.keptAfter before (word :: rest) = word :: c.keptAfter (word :: before) rest := by
  have hstays : ¬ (Odd (outputRun before) ∨ c.IsNoise word) := by
    rw [Nat.not_odd_iff_even.symm] at heven
    tauto
  rw [keptAfter_cons, if_neg hstays, List.singleton_append]

/-- A word other than `-o` ends a run. -/
theorem even_outputRun_cons {word : String} (h : word ≠ "-o") (before : List String) :
    Even (outputRun (word :: before)) := by
  rw [outputRun_cons, if_neg h]
  exact Even.zero

/-- From a place with an even run before it on, one pass keeps what the positions say. -/
theorem keptAfter_eq_dropDriverWords (c : Command) (before rest : List String) (heven : Even (outputRun before)) :
    c.keptAfter before rest = c.dropDriverWords rest := by
  fun_induction dropDriverWords c rest generalizing before with
  | case1 => rfl
  | case2 a ha => exact keptAfter_noise ((c.isDriverWord_iff a).mp ha) before []
  | case3 a ha => exact keptAfter_word heven (mt (c.isDriverWord_iff a).mpr ha) []
  | case4 b rest ih =>
    -- The option is for the driver, and the run that it ends is odd, so it takes the next word.
    have hodd : Odd (outputRun ("-o" :: before)) := by
      rw [outputRun_cons, if_pos rfl]
      exact heven.add_one
    rw [keptAfter_noise c.isNoise_output, keptAfter_odd c hodd]
    refine ih (b :: "-o" :: before) ?_
    by_cases hb : b = "-o"
    · rw [outputRun_cons, if_pos hb]
      exact hodd.add_one
    · exact even_outputRun_cons hb _
  | case5 a b rest hne ha ih =>
    rw [keptAfter_noise ((c.isDriverWord_iff a).mp ha)]
    exact ih (a :: before) (even_outputRun_cons hne _)
  | case6 a b rest hne ha ih =>
    rw [keptAfter_word heven (mt (c.isDriverWord_iff a).mpr ha)]
    exact congrArg (a :: ·) (ih (a :: before) (even_outputRun_cons hne _))

theorem keptWords_eq_dropDriverWords (c : Command) (words : List String) :
    c.keptWords words = c.dropDriverWords words :=
  c.keptAfter_eq_dropDriverWords [] words Even.zero

/-! ## What is kept -/

theorem not_isNoise_of_mem_keptWords {c : Command} {words : List String} {word : String}
    (h : word ∈ c.keptWords words) : ¬ c.IsNoise word := by
  obtain ⟨⟨word, i⟩, hmem, rfl⟩ := List.mem_map.mp h
  have hstays := (List.mem_filter.mp hmem).2
  exact (of_decide_eq_true hstays).2

/-- Words that are not for the driver are all kept. -/
theorem dropDriverWords_eq_self {c : Command} {words : List String} (h : ∀ word ∈ words, ¬ c.IsNoise word) :
    c.dropDriverWords words = words := by
  fun_induction dropDriverWords c words with
  | case1 => rfl
  | case2 a ha => exact absurd ((c.isDriverWord_iff a).mp ha) (h a List.mem_cons_self)
  | case3 => rfl
  | case4 b rest => exact absurd c.isNoise_output (h "-o" List.mem_cons_self)
  | case5 a b rest _ ha => exact absurd ((c.isDriverWord_iff a).mp ha) (h a List.mem_cons_self)
  | case6 a b rest _ _ ih => rw [ih fun word hword => h word (List.mem_cons_of_mem a hword)]

/-- What is for the driver does not depend on the other words of a command. -/
theorem dropDriverWords_arguments (c : Command) (arguments words : List String) :
    ({ c with arguments }).dropDriverWords words = c.dropDriverWords words := by
  have hword : ∀ word, ({ c with arguments }).isDriverWord word = c.isDriverWord word := fun _ => rfl
  fun_induction dropDriverWords c words with
  | case1 => rfl
  | case2 a ha => simp [dropDriverWords, hword, ha]
  | case3 a ha => simp [dropDriverWords, hword, ha]
  | case4 b rest ih => simp [dropDriverWords, ih]
  | case5 a b rest hne ha ih => simp [dropDriverWords, hword, hne, ha, ih]
  | case6 a b rest hne ha ih => simp [dropDriverWords, hword, hne, ha, ih]

/-- A parser library is given exactly those words after the compiler that are neither taken by an output option nor for
the driver, in order, and after them the directory if it exists. Given the kept words once more, behind any compiler, it
gets the same. -/
theorem parserArguments_keeps_positions (w : FileSystem.Place) (c : Command) :
    (∀ d, w.canonical c.directory = .ok d →
      c.parserArguments w = c.keptWords c.arguments.tail ++ ["-working-directory=" ++ d.text]) ∧
    (∀ e, w.canonical c.directory = .error e → c.parserArguments w = c.keptWords c.arguments.tail) ∧
    (∀ word ∈ c.keptWords c.arguments.tail,
      word ≠ "-c" ∧ ¬ "-o".toList <+: word.toList ∧ ¬ c.NamesSource word) ∧
    ∀ compiler : String,
      ({ c with arguments := compiler :: c.keptWords c.arguments.tail }).parserArguments w = c.parserArguments w := by
  have hclean : ∀ word ∈ c.keptWords c.arguments.tail, ¬ c.IsNoise word := fun _ => not_isNoise_of_mem_keptWords
  refine ⟨fun d hd => ?_, fun e he => ?_, fun word hword => ?_, fun compiler => ?_⟩
  · rw [parserArguments, keptWords_eq_dropDriverWords, hd]
    rfl
  · rw [parserArguments, keptWords_eq_dropDriverWords, he]
    exact List.append_nil _
  · have hword := hclean word hword
    simp only [IsNoise, not_or] at hword
    exact hword
  · have hkept : c.dropDriverWords (c.keptWords c.arguments.tail) = c.dropDriverWords c.arguments.tail :=
      (dropDriverWords_eq_self hclean).trans (c.keptWords_eq_dropDriverWords _)
    rw [parserArguments, parserArguments, dropDriverWords_arguments, List.tail_cons, hkept]

end SyntaxView.Command
