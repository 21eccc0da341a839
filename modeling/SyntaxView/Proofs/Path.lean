import Mathlib.Data.List.DropRight
import SyntaxView.Path

/-!
# Components of paths put together and taken apart

The components of a path are told by its text: how it starts, and the pieces between its slashes (`components_eq`). Two
texts with a slash between them have the pieces of both (`cut_append`), which gives the two laws that tie the operations
on texts to components:

- joined to a path that is not empty, a relative path adds its pieces as components (`components_join`);
- what a path is below a base is relative, and its pieces are the components that the base lacks (`below?_some`); there
  is such a rest exactly if the components of the base start those of the path (`below?_isSome`).
-/

namespace SyntaxView.Path

/-! ## Pieces -/

theorem cut_ne_nil (cs : List Char) : cut cs ≠ [] := by
  induction cs with
  | nil => simp [cut]
  | cons c cs ih =>
    rw [cut]
    split
    · simp
    · split
      · simp
      · simp

theorem cut_slash (cs : List Char) : cut ('/' :: cs) = [] :: cut cs := by simp [cut]

/-- A character other than a slash belongs to the first piece. -/
theorem cut_cons {c : Char} (hc : c ≠ '/') {cs : List Char} {p : List Char} {ps : List (List Char)}
    (h : cut cs = p :: ps) : cut (c :: cs) = (c :: p) :: ps := by
  simp [cut, hc, h]

theorem cut_append (a b : List Char) : cut (a ++ '/' :: b) = cut a ++ cut b := by
  induction a with
  | nil => simp [cut]
  | cons c a ih =>
    by_cases hc : c = '/'
    · subst hc
      rw [List.cons_append, cut_slash, cut_slash, ih, List.cons_append]
    · obtain ⟨p, ps, h⟩ := List.exists_cons_of_ne_nil (cut_ne_nil a)
      rw [h, List.cons_append] at ih
      rw [List.cons_append, cut_cons hc ih, cut_cons hc h, List.cons_append]

theorem slash_not_mem_cut (cs : List Char) : ∀ p ∈ cut cs, '/' ∉ p := by
  induction cs with
  | nil => simp [cut]
  | cons c cs ih =>
    by_cases hc : c = '/'
    · subst hc
      simpa [cut_slash] using ih
    · obtain ⟨p, ps, h⟩ := List.exists_cons_of_ne_nil (cut_ne_nil cs)
      rw [h, List.forall_mem_cons] at ih
      rw [cut_cons hc h, List.forall_mem_cons, List.mem_cons, not_or]
      exact ⟨⟨Ne.symm hc, ih.1⟩, ih.2⟩

theorem cut_of_not_mem {cs : List Char} (h : '/' ∉ cs) : cut cs = [cs] := by
  induction cs with
  | nil => rfl
  | cons c cs ih =>
    simp only [List.mem_cons, not_or] at h
    exact cut_cons (Ne.symm h.1) (ih h.2)

/-- Pieces put together are cut apart again. -/
theorem cut_glue : ∀ {ps : List (List Char)}, ps ≠ [] → (∀ p ∈ ps, '/' ∉ p) → cut (glue ps) = ps
  | [], hne, _ => absurd rfl hne
  | [p], _, h => cut_of_not_mem (h p List.mem_cons_self)
  | p :: q :: ps, _, h => by
    have hrest : cut (glue (q :: ps)) = q :: ps :=
      cut_glue (List.cons_ne_nil q ps) fun r hr => h r (List.mem_cons_of_mem p hr)
    rw [glue, cut_append, cut_of_not_mem (h p List.mem_cons_self), hrest]
    · rfl
    · simp

/-! ## Components of pieces -/

theorem component?_eq_none_iff (piece : List Char) : component? piece = none ↔ isIdle piece = true := by
  unfold component?
  split
  · simp_all
  · split
    · simp_all
    · simp_all

theorem filterMap_dropWhile (ps : List (List Char)) :
    (ps.dropWhile isIdle).filterMap component? = ps.filterMap component? := by
  induction ps with
  | nil => rfl
  | cons p ps ih =>
    by_cases hp : isIdle p = true
    · rw [List.dropWhile_cons_of_pos hp, ih, List.filterMap_cons_none ((component?_eq_none_iff p).2 hp)]
    · rw [List.dropWhile_cons_of_neg hp]

theorem filterMap_dropIdleEnd (ps : List (List Char)) :
    (dropIdleEnd ps).filterMap component? = ps.filterMap component? := by
  rw [dropIdleEnd, List.filterMap_reverse, filterMap_dropWhile, List.filterMap_reverse, List.reverse_reverse]

theorem filterMap_dropNames (n : Nat) (ps : List (List Char)) :
    (dropNames n ps).filterMap component? = (ps.filterMap component?).drop n := by
  fun_induction dropNames n ps with
  | case1 ps => rw [List.drop_zero]
  | case2 n => rw [List.filterMap_nil, List.drop_nil]
  | case3 n p ps hp ih => rw [ih, List.filterMap_cons_none ((component?_eq_none_iff p).2 hp)]
  | case4 n p ps hp ih =>
    obtain ⟨x, hx⟩ := Option.ne_none_iff_exists'.1 (mt (component?_eq_none_iff p).1 hp)
    rw [ih, List.filterMap_cons_some hx, List.drop_succ_cons]

/-- The components of a text that is not the start of a path. -/
def names (cs : List Char) : List Component := (cut cs).filterMap component?

theorem names_nil : names [] = [] := rfl

theorem names_append (a b : List Char) : names (a ++ '/' :: b) = names a ++ names b := by
  rw [names, cut_append, List.filterMap_append]
  rfl

theorem names_glue {ps : List (List Char)} (h : ∀ p ∈ ps, '/' ∉ p) : names (glue ps) = ps.filterMap component? := by
  cases ps with
  | nil => rfl
  | cons p ps => rw [names, cut_glue (List.cons_ne_nil p ps) h]

/-! ## Components of a text -/

/-- How the path of a text starts. -/
def startOf (cs : List Char) : Start :=
  if cs.head? = some '/' then .root else if (cut cs).head? = some ['.'] then .here else .plain

theorem components_eq (p : Path) : p.components = (startOf p.text.toList).components ++ names p.text.toList := by
  have hdot : component? ['.'] = none := rfl
  have hempty : component? [] = none := rfl
  unfold components split
  split
  · rename_i cs hcs
    rw [startOf, hcs, List.head?_cons, if_pos rfl, names, cut_slash, List.filterMap_cons_none hempty]
  · rename_i hroot
    have hhead : p.text.toList.head? ≠ some '/' := by
      intro h
      obtain ⟨cs, hcs⟩ := List.head?_eq_some_iff.1 h
      exact hroot cs hcs
    rw [startOf, if_neg hhead, names]
    split
    · rename_i rest h
      rw [h, List.head?_cons, if_pos rfl, List.filterMap_cons_none hdot]
    · rename_i h
      rw [if_neg]
      intro hdot
      obtain ⟨rest, hrest⟩ := List.head?_eq_some_iff.1 hdot
      exact h rest hrest

/-- The start of a path is in what stands before its first slash. -/
theorem startOf_append {a : List Char} (ha : a ≠ []) (b : List Char) : startOf (a ++ '/' :: b) = startOf a := by
  rw [startOf, startOf, cut_append, List.head?_append_of_ne_nil _ ha, List.head?_append_of_ne_nil _ (cut_ne_nil a)]

/-- A slash at the end of a text is not seen, unless the text is the root alone. -/
theorem startOf_append_nil (a b : List Char) : startOf (a ++ '/' :: b) = startOf (a ++ ['/']) := by
  cases a with
  | nil => rfl
  | cons c a => rw [startOf_append (List.cons_ne_nil c a), startOf_append (List.cons_ne_nil c a)]

theorem components_ne_nil {p : Path} (h : p.text ≠ "") : p.components ≠ [] := by
  obtain ⟨c, cs, hcs⟩ := List.exists_cons_of_ne_nil (mt String.toList_eq_nil_iff.1 h)
  rw [components_eq, hcs, startOf, List.head?_cons]
  by_cases hc : c = '/'
  · subst hc
    exact List.cons_ne_nil _ _
  obtain ⟨q, qs, hq⟩ := List.exists_cons_of_ne_nil (cut_ne_nil cs)
  rw [if_neg (by simpa using hc), names, cut_cons hc hq, List.head?_cons]
  by_cases hidle : isIdle (c :: q) = true
  · -- The first piece is not empty, so it is idle only as the `.` that starts a path.
    have hdot : c :: q = ['.'] := by simpa [isIdle] using hidle
    rw [if_pos (congrArg some hdot)]
    exact List.cons_ne_nil _ _
  · obtain ⟨x, hx⟩ := Option.ne_none_iff_exists'.1 (mt (component?_eq_none_iff _).1 hidle)
    rw [List.filterMap_cons_some hx]
    exact List.append_ne_nil_of_right_ne_nil _ (List.cons_ne_nil _ _)

/-! ## Joining -/

variable {p q base rest : Path}

theorem join_of_isAbsolute (p : Path) (h : q.isAbsolute = true) : p.join q = q := by
  rw [join, if_pos h]

/-- A join is the two texts with one slash between them, which may be the one that the first ends with. -/
theorem toList_join (hp : p.text ≠ "") (hq : q.isAbsolute = false) :
    ∃ a, (p.join q).text.toList = a ++ '/' :: q.text.toList ∧
      (p.text.toList = a ∧ a ≠ [] ∨ p.text.toList = a ++ ['/']) := by
  have hne : p.text.toList ≠ [] := mt String.toList_eq_nil_iff.1 hp
  have hlast := List.getLast?_eq_some_getLast hne
  obtain ⟨a, ha⟩ := List.getLast?_eq_some_iff.1 hlast
  generalize p.text.toList.getLast hne = c at hlast ha
  rw [join, if_neg (by simp [hq]), hlast]
  by_cases hc : c = '/'
  · subst hc
    refine ⟨a, ?_, .inr ha⟩
    simp [ha]
  · refine ⟨p.text.toList, ?_, .inl ⟨rfl, hne⟩⟩
    simp [hc]

/-- A relative path of two parts is joined part by part. -/
theorem join_parts {first : String} (hne : first ≠ "") (hfirst : (Path.mk first).isAbsolute = false) (p : Path)
    (second : String) : p.join ⟨first ++ "/" ++ second⟩ = ⟨(p.join ⟨first⟩).text ++ "/" ++ second⟩ := by
  have hboth : (Path.mk (first ++ "/" ++ second)).isAbsolute = false := by
    rw [isAbsolute] at hfirst ⊢
    rw [String.toList_append, String.toList_append, List.append_assoc,
      List.head?_append_of_ne_nil _ (mt String.toList_eq_nil_iff.1 hne)]
    exact hfirst
  rw [join, join, if_neg (by simp [hboth]), if_neg (by simp [hfirst])]
  cases p.text.toList.getLast? with
  | none => rfl
  | some c => by_cases hc : c = '/' <;> simp [hc, String.append_assoc]

theorem components_join (hp : p.text ≠ "") (hq : q.isAbsolute = false) :
    (p.join q).components = p.components ++ names q.text.toList := by
  obtain ⟨a, hjoin, ⟨ha, hne⟩ | ha⟩ := toList_join hp hq
  · rw [components_eq, components_eq, hjoin, ha, startOf_append hne, names_append, List.append_assoc]
  · rw [components_eq, components_eq, hjoin, ha, startOf_append_nil, names_append, names_append, names_nil,
      List.append_nil, List.append_assoc]

theorem ne_empty_of_isAbsolute (h : p.isAbsolute = true) : p.text ≠ "" := by
  intro hp
  rw [isAbsolute, hp] at h
  exact absurd h (by decide)

theorem isAbsolute_join (h : p.isAbsolute = true) (q : Path) : (p.join q).isAbsolute = true := by
  by_cases hq : q.isAbsolute = true
  · rw [join_of_isAbsolute p hq, hq]
  · rw [Bool.not_eq_true] at hq
    obtain ⟨a, hjoin, ⟨ha, hne⟩ | ha⟩ := toList_join (ne_empty_of_isAbsolute h) hq
    · rw [isAbsolute, ha] at h
      rw [isAbsolute, hjoin, List.head?_append_of_ne_nil _ hne, h]
    · rw [isAbsolute, ha] at h
      rw [isAbsolute, hjoin]
      cases a with
      | nil => rfl
      | cons c a => exact h

/-! ## What is below a base -/

theorem below?_isSome : (p.below? base).isSome = true ↔ base.components <+: p.components := by
  rw [← List.isPrefixOf_iff_prefix, below?]
  split
  · rename_i h
    simp only [h, iff_true]
    split
    · rfl
    · rfl
  · rename_i h
    simp [h]

theorem length_start_le (s : Start) : s.components.length ≤ 1 := by
  cases s <;> simp [Start.components]

theorem slash_not_mem_split (p : Path) : ∀ piece ∈ p.split.2, '/' ∉ piece := by
  unfold split
  split
  · exact slash_not_mem_cut _
  · split
    · rename_i rest h
      intro piece hpiece
      have hcut := slash_not_mem_cut p.text.toList
      rw [h] at hcut
      exact hcut piece (List.mem_cons_of_mem _ hpiece)
    · exact slash_not_mem_cut _

theorem dropNames_sublist (n : Nat) (ps : List (List Char)) : (dropNames n ps).Sublist ps := by
  fun_induction dropNames n ps with
  | case1 ps => exact .refl ps
  | case2 n => exact .refl []
  | case3 n p ps _ ih => exact ih.cons p
  | case4 n p ps _ ih => exact ih.cons p

/-- The pieces after the `n`-th that is not idle, without idle ones at either end. -/
def piecesAfter (n : Nat) (ps : List (List Char)) : List (List Char) :=
  dropIdleEnd ((dropNames n ps).dropWhile isIdle)

theorem piecesAfter_isPrefix (n : Nat) (ps : List (List Char)) :
    piecesAfter n ps <+: (dropNames n ps).dropWhile isIdle := List.rdropWhile_prefix isIdle _

theorem piecesAfter_sublist (n : Nat) (ps : List (List Char)) : (piecesAfter n ps).Sublist ps :=
  (piecesAfter_isPrefix n ps).sublist.trans ((List.dropWhile_sublist isIdle).trans (dropNames_sublist n ps))

theorem filterMap_piecesAfter (n : Nat) (ps : List (List Char)) :
    (piecesAfter n ps).filterMap component? = (ps.filterMap component?).drop n := by
  rw [piecesAfter, filterMap_dropIdleEnd, filterMap_dropWhile, filterMap_dropNames]

theorem isIdle_of_head_piecesAfter {n : Nat} {ps : List (List Char)} {piece : List Char}
    (h : (piecesAfter n ps).head? = some piece) : isIdle piece = false := by
  have hhead : ((dropNames n ps).dropWhile isIdle).head? = some piece := by
    obtain ⟨after, hafter⟩ := piecesAfter_isPrefix n ps
    rw [← hafter, List.head?_append, h, Option.some_or]
  have hnot := List.head?_dropWhile_not isIdle (dropNames n ps)
  rw [hhead] at hnot
  exact hnot

/-- A text that starts with a piece that is not idle is relative. -/
theorem head_glue {ps : List (List Char)} (hslash : ∀ p ∈ ps, '/' ∉ p)
    (hidle : ∀ p, ps.head? = some p → isIdle p = false) : (glue ps).head? ≠ some '/' := by
  match ps with
  | [] => simp [glue]
  | [] :: qs => exact absurd (hidle [] rfl) (by decide)
  | (c :: p) :: qs =>
    have hc : '/' ≠ c := fun hc => hslash (c :: p) List.mem_cons_self (hc ▸ List.mem_cons_self)
    have hhead : (glue ((c :: p) :: qs)).head? = some c := by cases qs <;> rfl
    rw [hhead]
    intro h
    exact hc (Option.some.inj h).symm

theorem below?_eq (hne : base.components ≠ []) (hstart : base.components <+: p.components) : p.below? base =
    some ⟨String.ofList (glue (piecesAfter (base.components.length - p.split.1.components.length) p.split.2))⟩ := by
  rw [below?, if_pos (List.isPrefixOf_iff_prefix.2 hstart)]
  simp only [List.isEmpty_iff, hne, ↓reduceIte]
  rfl

/-- The rest below a base is relative, and behind the components of the base it gives those of the path. -/
theorem below?_some (hbase : base.text ≠ "") (h : p.below? base = some rest) :
    rest.isAbsolute = false ∧ p.components = base.components ++ names rest.text.toList := by
  have hne := components_ne_nil hbase
  have hstart : base.components <+: p.components := below?_isSome.1 (by rw [h]; rfl)
  rw [below?_eq hne hstart, Option.some.injEq] at h
  subst h
  generalize hn : base.components.length - p.split.1.components.length = n
  have hslash : ∀ piece ∈ piecesAfter n p.split.2, '/' ∉ piece := by
    intro piece hpiece
    exact slash_not_mem_split p piece ((piecesAfter_sublist n p.split.2).subset hpiece)
  rw [isAbsolute, String.toList_ofList]
  constructor
  · simpa using head_glue hslash fun piece hpiece => isIdle_of_head_piecesAfter hpiece
  · obtain ⟨more, hmore⟩ := hstart
    have hroot := length_start_le p.split.1
    have hlength := List.length_pos_iff.2 hne
    have hdrop : p.components.drop base.components.length = (p.split.2.filterMap component?).drop n := by
      rw [components.eq_def p, List.drop_append, List.drop_eq_nil_of_le (by omega), List.nil_append, hn]
    rw [names_glue hslash, filterMap_piecesAfter, ← hdrop, ← hmore, List.drop_left]

/-- A relative path joined to a base is below it, with the pieces that it adds. -/
theorem below?_join (hbase : base.text ≠ "") (hq : q.isAbsolute = false) :
    ∃ rest, (base.join q).below? base = some rest ∧ rest.isAbsolute = false ∧
      names rest.text.toList = names q.text.toList := by
  have hjoin := components_join hbase hq
  have hsome : ((base.join q).below? base).isSome = true := by
    rw [below?_isSome, hjoin]
    exact List.prefix_append _ _
  obtain ⟨rest, hrest⟩ := Option.isSome_iff_exists.1 hsome
  obtain ⟨hrelative, hcomponents⟩ := below?_some hbase hrest
  rw [hjoin] at hcomponents
  exact ⟨rest, hrest, hrelative, (List.append_cancel_left hcomponents).symm⟩

end SyntaxView.Path
