import SyntaxView.Proofs.Settings.Saved

/-!
# Words of options

A set of parse options is kept as one word. It is built in steps: an option is added by its method or as it is, or the
set is replaced by one that collects a list.

- Bits of different options do not meet (`bit_and_bit`), so a word tells which options were put into it, step by step
  (`contains_apply`) and over a whole run (`contains_build`).
- A word that was built has no bits but those of its options (`IsUnion`), and the bitwise or of some options depends
  only on which options these are (`wordOf_congr`). So two words with the same options are the same.

Main result: `build_determines_options`.
-/

namespace SyntaxView.OptionSet

/-! ## Bits -/

theorem bit_and_bit {o p : ParseOption} (h : o ≠ p) : o.bit &&& p.bit = 0 := by
  revert h
  cases o <;> cases p <;> decide

theorem or_and_distrib (a b c : Int32) : (a ||| b) &&& c = a &&& c ||| b &&& c := by
  rw [← Int32.toBitVec_inj, Int32.toBitVec_and, Int32.toBitVec_or, Int32.toBitVec_or, Int32.toBitVec_and,
    Int32.toBitVec_and]
  exact BitVec.and_or_distrib_right

theorem and_or_self (a b : Int32) : a &&& b ||| b = b := by
  rw [← Int32.toBitVec_inj, Int32.toBitVec_or, Int32.toBitVec_and]
  ext i hi
  simp

@[simp] theorem contains_empty (o : ParseOption) : empty.contains o = false := by
  cases o <;> decide

theorem contains_insert (s : OptionSet) (o p : ParseOption) :
    (s.insert o).contains p = true ↔ p = o ∨ s.contains p = true := by
  simp only [contains, insert, beq_iff_eq, or_and_distrib]
  by_cases h : p = o
  · subst h
    rw [Int32.and_self, and_or_self]
    simp
  · rw [bit_and_bit (Ne.symm h), Int32.or_zero]
    simp [h]

theorem contains_foldl_insert (l : List ParseOption) (s : OptionSet) (p : ParseOption) :
    (l.foldl insert s).contains p = true ↔ p ∈ l ∨ s.contains p = true := by
  induction l generalizing s with
  | nil => simp
  | cons o l ih =>
    rw [List.foldl_cons, ih, contains_insert, List.mem_cons]
    tauto

theorem contains_ofList (l : List ParseOption) (p : ParseOption) : (ofList l).contains p = true ↔ p ∈ l := by
  rw [ofList, contains_foldl_insert, contains_empty]
  simp

theorem mem_toList (s : OptionSet) (o : ParseOption) : o ∈ s.toList ↔ s.contains o = true := by
  have hall : o ∈ (Labelled.all : List ParseOption) := by cases o <;> decide
  rw [toList, List.mem_filter]
  exact and_iff_right hall

/-! ## Words -/

/-- The bitwise or of the bits of some options. -/
def wordOf (l : List ParseOption) : Int32 := l.foldr (fun o word => o.bit ||| word) 0

theorem bit_or_wordOf {l : List ParseOption} {o : ParseOption} (h : o ∈ l) : o.bit ||| wordOf l = wordOf l := by
  induction l with
  | nil => cases h
  | cons p l ih =>
    change o.bit ||| (p.bit ||| wordOf l) = p.bit ||| wordOf l
    rcases List.mem_cons.1 h with rfl | h
    · rw [← Int32.or_assoc, Int32.or_self]
    · rw [← Int32.or_assoc, Int32.or_comm o.bit, Int32.or_assoc, ih h]

theorem wordOf_or_of_subset {l l' : List ParseOption} (h : l ⊆ l') : wordOf l ||| wordOf l' = wordOf l' := by
  induction l with
  | nil => exact Int32.zero_or
  | cons o l ih =>
    obtain ⟨ho, hl⟩ := List.cons_subset.1 h
    change (o.bit ||| wordOf l) ||| wordOf l' = wordOf l'
    rw [Int32.or_assoc, ih hl, bit_or_wordOf ho]

/-- Neither the order nor repetition matters. -/
theorem wordOf_congr {l l' : List ParseOption} (h : ∀ o, o ∈ l ↔ o ∈ l') : wordOf l = wordOf l' := by
  have hle : wordOf l ||| wordOf l' = wordOf l' := wordOf_or_of_subset fun o => (h o).1
  have hge : wordOf l' ||| wordOf l = wordOf l := wordOf_or_of_subset fun o => (h o).2
  rw [← hge, Int32.or_comm, hle]

/-- The word has the bits of its options and no others. -/
def IsUnion (s : OptionSet) : Prop := s.bits = wordOf s.toList

theorem isUnion_empty : IsUnion empty := rfl

theorem IsUnion.bits {s : OptionSet} (hs : s.IsUnion) {l : List ParseOption}
    (hl : ∀ o, o ∈ l ↔ s.contains o = true) : s.bits = wordOf l := by
  rw [hs, wordOf_congr]
  intro o
  rw [hl, mem_toList]

theorem IsUnion.insert {s : OptionSet} (hs : s.IsUnion) (o : ParseOption) : (s.insert o).IsUnion := by
  have hmembers : ∀ p, p ∈ o :: s.toList ↔ p ∈ (s.insert o).toList := by
    intro p
    rw [List.mem_cons, mem_toList, mem_toList, contains_insert]
  calc (s.insert o).bits = s.bits ||| o.bit := rfl
    _ = o.bit ||| wordOf s.toList := by rw [hs, Int32.or_comm]
    _ = wordOf (s.insert o).toList := wordOf_congr hmembers

theorem isUnion_ofList (l : List ParseOption) : (ofList l).IsUnion :=
  List.foldlRecOn l OptionSet.insert isUnion_empty fun _ hs o _ => hs.insert o

theorem IsUnion.bits_eq_iff {s t : OptionSet} (hs : s.IsUnion) (ht : t.IsUnion) :
    s.bits = t.bits ↔ ∀ o, s.contains o = true ↔ t.contains o = true := by
  constructor
  · intro h o
    rw [contains, contains, h]
  · intro h
    rw [ht.bits (mem_toList t), hs.bits fun o => (mem_toList t o).trans (h o).symm]

/-! ## Building -/

/-- The methods bear the labels of their options. -/
theorem lookup_methods {name : String} {o : ParseOption} :
    methods.lookup name = some o ↔ Labelled.label o = name := by
  constructor
  · intro h
    have hlabels : ∀ m ∈ methods, Labelled.label m.2 = m.1 := by decide
    exact hlabels _ (Table.mem_of_lookup h)
  · rintro rfl
    cases o <;> rfl

namespace Step

/-- The step puts the option into the set. -/
inductive Adds : Step → ParseOption → Prop
  | named (o : ParseOption) : Adds (.named (Labelled.label o)) o
  | insert (o : ParseOption) : Adds (.insert o) o
  | collect {l : List ParseOption} {o : ParseOption} : o ∈ l → Adds (.collect l) o

/-- The step keeps what is in the set. -/
def Keeps (step : Step) : Prop := ∀ l, step ≠ .collect l

end Step

/-- A step adds the option, and no later step starts anew. -/
def Added (steps : List Step) (o : ParseOption) : Prop :=
  ∃ before step after, steps = before ++ step :: after ∧ step.Adds o ∧ ∀ later ∈ after, later.Keeps

/-- What is in the set after a step. -/
theorem contains_apply (s : OptionSet) (step : Step) (o : ParseOption) :
    (s.apply step).contains o = true ↔ step.Adds o ∨ step.Keeps ∧ s.contains o = true := by
  cases step with
  | named name =>
    have hkeeps : (Step.named name).Keeps := nofun
    have hadds : (Step.named name).Adds o ↔ methods.lookup name = some o := by
      rw [lookup_methods]
      exact ⟨fun h => by cases h; rfl, fun h => h ▸ .named o⟩
    rw [apply, hadds]
    cases methods.lookup name with
    | none => simp [hkeeps]
    | some p =>
      rw [Option.elim_some, contains_insert, Option.some.injEq, eq_comm]
      simp [hkeeps]
  | insert p =>
    have hkeeps : (Step.insert p).Keeps := nofun
    have hadds : (Step.insert p).Adds o ↔ o = p := ⟨fun h => by cases h; rfl, fun h => h ▸ .insert o⟩
    rw [apply, contains_insert, hadds]
    simp [hkeeps]
  | collect l =>
    have hkeeps : ¬ (Step.collect l).Keeps := fun h => h l rfl
    have hadds : (Step.collect l).Adds o ↔ o ∈ l := ⟨fun h => by cases h; assumption, .collect⟩
    rw [apply, contains_ofList, hadds]
    simp [hkeeps]

theorem added_concat (steps : List Step) (step : Step) (o : ParseOption) :
    Added (steps ++ [step]) o ↔ step.Adds o ∨ step.Keeps ∧ Added steps o := by
  constructor
  · rintro ⟨before, adding, after, hsteps, hadds, hafter⟩
    rcases List.eq_nil_or_concat' after with rfl | ⟨after, last, rfl⟩
    · obtain ⟨-, hlast⟩ := List.append_inj' hsteps rfl
      cases hlast
      exact .inl hadds
    · rw [← List.cons_append, ← List.append_assoc] at hsteps
      obtain ⟨hbefore, hlast⟩ := List.append_inj' hsteps rfl
      cases hlast
      rw [List.forall_mem_append] at hafter
      exact .inr ⟨hafter.2 step (by simp), before, adding, after, hbefore, hadds, hafter.1⟩
  · rintro (hadds | ⟨hkeeps, before, adding, after, rfl, hadds, hafter⟩)
    · exact ⟨steps, step, [], rfl, hadds, nofun⟩
    · refine ⟨before, adding, after ++ [step], by simp, hadds, ?_⟩
      rw [List.forall_mem_append]
      exact ⟨hafter, by simpa using hkeeps⟩

theorem build_concat (steps : List Step) (step : Step) : build (steps ++ [step]) = (build steps).apply step :=
  List.foldl_append

/-- What is in the set after a run. -/
theorem contains_build (steps : List Step) (o : ParseOption) : (build steps).contains o = true ↔ Added steps o := by
  induction steps using List.reverseRecOn with
  | nil => simp [build, Added]
  | append_singleton steps step ih => rw [build_concat, contains_apply, added_concat, ih]

theorem IsUnion.apply {s : OptionSet} (hs : s.IsUnion) (step : Step) : (s.apply step).IsUnion := by
  cases step with
  | named name =>
    rw [OptionSet.apply]
    cases methods.lookup name with
    | none => exact hs
    | some o => exact hs.insert o
  | insert o => exact hs.insert o
  | collect l => exact isUnion_ofList l

theorem isUnion_build (steps : List Step) : (build steps).IsUnion :=
  List.foldlRecOn steps OptionSet.apply isUnion_empty fun _ hs step _ => hs.apply step

/-- The word of a set that was built in steps has the bit of an option exactly if that was added since, or by, the last
step that starts anew, and it is the bitwise or of these options in whatever order and however often they are listed.
Two runs lead to the same word exactly if the same options were added, and two settings give the same word exactly if
they list the same options. -/
theorem build_determines_options (steps steps' : List Step) :
    (∀ o, (build steps).contains o = true ↔ Added steps o) ∧
    (∀ l, (∀ o, o ∈ l ↔ Added steps o) → (build steps).bits = wordOf l) ∧
    ((build steps).bits = (build steps').bits ↔ ∀ o, Added steps o ↔ Added steps' o) ∧
    ∀ p p' : ParsingSettings, (∀ o, p.optionSet.contains o = true ↔ o ∈ p.options) ∧
      (p.optionSet.bits = p'.optionSet.bits ↔ ∀ o, o ∈ p.options ↔ o ∈ p'.options) := by
  refine ⟨contains_build steps, fun l hl => ?_, ?_, fun p p' => ⟨contains_ofList p.options, ?_⟩⟩
  · exact (isUnion_build steps).bits fun o => (hl o).trans (contains_build steps o).symm
  · simp only [(isUnion_build steps).bits_eq_iff (isUnion_build steps'), contains_build]
  · have hunion := (isUnion_ofList p.options).bits_eq_iff (isUnion_ofList p'.options)
    simp only [contains_ofList] at hunion
    exact hunion

/-- An option that is dropped again, two that are collected, and two more, one of them a second time. -/
def mixedSteps : List Step :=
  [.named "for_serialization", .collect [.skipFunctionBodies, .incomplete], .insert .incomplete, .named "chained_pch"]

theorem mixedSteps_word : (build mixedSteps).bits = wordOf [.chainedPch, .skipFunctionBodies, .incomplete] ∧
    wordOf [.chainedPch, .skipFunctionBodies, .incomplete] = 98 := by
  refine ⟨(build_determines_options mixedSteps []).2.1 _ fun o => ?_, by decide⟩
  rw [← contains_build]
  cases o <;> decide

end SyntaxView.OptionSet
