import SyntaxView.Proofs.Tree.Stream

/-!
# Streams that fail

What a failed flush leaves behind. `LineStream.after` is the stream after some lines, computed from the lines alone:
their texts are in the sink, and each has used up a flush and a number. Putting lines leads to the stream after a first
part of them, wherever it stops (`exists_putLines_eq`), because a failed flush comes after the line and its number.

- If exactly the flushes from `k` on fail, a call stops behind line `k`, and what it leaves are the first lines of the
  call that does not fail (`putLines_of_failsFrom`).
- A run goes on after failures (`writeEach`). What it puts are lines whose numbers count up without a gap
  (`writeEach_eq_after`), so that no number is used twice whatever flushes fail.
-/

namespace SyntaxView

/-- Of the flushes to come, counted from zero, exactly those from `k` on fail. -/
def Sink.FailsFrom (k : Nat) (s : Sink) : Prop := ∀ j, (s.fault (s.flushes + j)).isSome ↔ k ≤ j

theorem Sink.FailsFrom.fault_of_lt {s : Sink} {k j : Nat} (h : s.FailsFrom k) (hj : j < k) :
    s.fault (s.flushes + j) = none := by
  rw [← Option.not_isSome_iff_eq_none, h j]
  omega

namespace LineStream

/-! ## The stream after some lines -/

/-- The stream after these lines, whether or not the flush of the last went well. -/
def after (s : LineStream) (ls : List NodeLine) : LineStream where
  sink :=
    { s.sink with
      written := s.sink.written ++ String.join (ls.map NodeLine.text)
      flushes := s.sink.flushes + ls.length }
  nextId := s.nextId + ls.length

@[simp] theorem after_nextId (s : LineStream) (ls : List NodeLine) : (s.after ls).nextId = s.nextId + ls.length := rfl

@[simp] theorem after_written (s : LineStream) (ls : List NodeLine) :
    (s.after ls).sink.written = s.sink.written ++ String.join (ls.map NodeLine.text) := rfl

@[simp] theorem after_flushes (s : LineStream) (ls : List NodeLine) :
    (s.after ls).sink.flushes = s.sink.flushes + ls.length := rfl

@[simp] theorem after_fault (s : LineStream) (ls : List NodeLine) : (s.after ls).sink.fault = s.sink.fault := rfl

@[simp] theorem after_nil (s : LineStream) : s.after [] = s := by
  simp [after]

theorem after_append (s : LineStream) (ls ms : List NodeLine) : s.after (ls ++ ms) = (s.after ls).after ms := by
  simp [after, String.append_assoc, Nat.add_assoc]

theorem after_cons (s : LineStream) (l : NodeLine) (ls : List NodeLine) : s.after (l :: ls) = (s.after [l]).after ls :=
  after_append s [l] ls

/-! ## Putting lines -/

/-- One step: the line is put and its number used up before the flush decides whether to go on. -/
theorem putLines_cons (l : NodeLine) (ls : List NodeLine) (s : LineStream) : putLines (l :: ls) s =
    match s.sink.fault s.sink.flushes with
    | some e => (.error (.write e), s.after [l])
    | none => putLines ls (s.after [l]) := by
  have hafter : s.after [l] = ⟨⟨s.sink.written ++ l.text, s.sink.flushes + 1, s.sink.fault⟩, s.nextId + 1⟩ := by
    simp [after]
  simp only [hafter, putLines, writeLine, Sink.flush, Sink.put]
  cases s.sink.fault s.sink.flushes <;> rfl

theorem putLines_of_no_fault (ls : List NodeLine) : ∀ {s : LineStream},
    (∀ j < ls.length, s.sink.fault (s.sink.flushes + j) = none) → putLines ls s = (.ok (), s.after ls) := by
  induction ls with
  | nil =>
    intro s h
    rw [after_nil]
    rfl
  | cons l ls ih =>
    intro s h
    have hl : s.sink.fault s.sink.flushes = none := h 0 (Nat.succ_pos _)
    have hls : ∀ j < ls.length, (s.after [l]).sink.fault ((s.after [l]).sink.flushes + j) = none := by
      intro j hj
      simpa [Nat.add_assoc, Nat.add_comm 1 j] using h (j + 1) (Nat.succ_lt_succ hj)
    rw [putLines_cons, hl, ih hls, after_cons s l ls]

/-- The first flush that fails ends the run behind its own line. -/
theorem putLines_of_fault {ls : List NodeLine} {s : LineStream} {k : Nat} {e : IoError} (hk : k < ls.length)
    (hbefore : ∀ j < k, s.sink.fault (s.sink.flushes + j) = none) (hfault : s.sink.fault (s.sink.flushes + k) = some e) :
    putLines ls s = (.error (.write e), s.after (ls.take (k + 1))) := by
  have hlength : (ls.take k).length = k := List.length_take_of_le (Nat.le_of_lt hk)
  -- The lines before line `k` go well, and the flush that fails is the one that comes next.
  have hfirst : putLines (ls.take k) s = (.ok (), s.after (ls.take k)) :=
    putLines_of_no_fault (ls.take k) (by rwa [hlength])
  have hat : (s.after (ls.take k)).sink.fault (s.after (ls.take k)).sink.flushes = some e := by
    simpa [hlength] using hfault
  have hsplit : ls = ls.take k ++ ls[k] :: ls.drop (k + 1) := by simp
  calc putLines ls s
      = putLines (ls[k] :: ls.drop (k + 1)) (s.after (ls.take k)) := by
        conv_lhs => rw [hsplit, putLines_append, hfirst]
    _ = (.error (.write e), (s.after (ls.take k)).after [ls[k]]) := by rw [putLines_cons, hat]
    _ = (.error (.write e), s.after (ls.take (k + 1))) := by rw [← after_append, List.take_append_getElem]

/-- If the flushes from `k` on fail, the run ends behind line `k`, or with the last line if there is no line `k`. -/
theorem putLines_of_failsFrom {s : LineStream} {k : Nat} (hk : s.sink.FailsFrom k) (ls : List NodeLine) :
    ∃ result, putLines ls s = (result, s.after (ls.take (k + 1))) ∧
      ((∃ e, result = .error (.write e)) ↔ k < ls.length) ∧ (result = .ok () ↔ ls.length ≤ k) := by
  rcases Nat.lt_or_ge k ls.length with hlt | hge
  · obtain ⟨e, he⟩ := Option.isSome_iff_exists.1 ((hk k).2 (Nat.le_refl k))
    refine ⟨_, putLines_of_fault hlt (fun j hj => hk.fault_of_lt hj) he, ?_, ?_⟩
    · simp [hlt]
    · simp [hlt]
  · have hall : ls.take (k + 1) = ls := List.take_of_length_le (by omega)
    rw [hall]
    refine ⟨_, putLines_of_no_fault ls (fun j hj => hk.fault_of_lt (by omega)), ?_, ?_⟩
    · simp [hge]
    · simp [hge]

/-- Whatever flushes fail, what has been put is a first part of the lines. -/
theorem exists_putLines_eq (ls : List NodeLine) : ∀ s : LineStream, ∃ j, (putLines ls s).2 = s.after (ls.take j) := by
  induction ls with
  | nil => exact fun s => ⟨0, (after_nil s).symm⟩
  | cons l ls ih =>
    intro s
    rw [putLines_cons]
    cases s.sink.fault s.sink.flushes with
    | some e => exact ⟨1, rfl⟩
    | none =>
      obtain ⟨j, hj⟩ := ih (s.after [l])
      exact ⟨j + 1, by rw [hj, List.take_succ_cons, after_cons s l (ls.take j)]⟩

/-! ## Calls -/

/-- The calls one after the other, each on the stream that the one before it left, whether or not it failed. -/
def writeEach (s : LineStream) (calls : List (Option Nat × Node)) : LineStream :=
  calls.foldl (fun s call => (s.write call.1 call.2).2) s

/-- A line of some call. -/
def IsCallLine (l : NodeLine) : Prop := ∃ (id : Nat) (n : Node), l ∈ n.numbered 0 none id

theorem IsCallLine.parse {l : NodeLine} (h : IsCallLine l) (hid : l.id < UInt64.size) :
    Json.parse l.toJson.compact = .ok l.toJson := by
  obtain ⟨id, n, hl⟩ := h
  exact Node.parse_of_mem_numbered hl hid

/-- A call leaves lines whose numbers count up from the next one. -/
theorem exists_write_eq_after (s : LineStream) (limit : Option Nat) (n : Node) : ∃ lines : List NodeLine,
    (s.write limit n).2 = s.after lines ∧ lines.map NodeLine.id = List.range' s.nextId lines.length ∧
      ∀ l ∈ lines, IsCallLine l := by
  obtain ⟨j, hj⟩ := exists_putLines_eq ((n.cut limit).numbered 0 none s.nextId) s
  refine ⟨_, by rw [write_eq_putLines, hj], ?_, fun l hl => ⟨_, _, List.mem_of_mem_take hl⟩⟩
  rw [List.map_take, Node.numbered_ids]
  exact List.ext_getElem (by simp [Node.length_numbered]) (by simp)

/-- A run leaves lines whose numbers count up from the next one: a number is used up exactly when its line is put, so
that a call goes on where the one before it stopped. -/
theorem writeEach_eq_after (calls : List (Option Nat × Node)) : ∀ s : LineStream, ∃ lines : List NodeLine,
    s.writeEach calls = s.after lines ∧ lines.map NodeLine.id = List.range' s.nextId lines.length ∧
      ∀ l ∈ lines, IsCallLine l := by
  induction calls with
  | nil => exact fun s => ⟨[], (after_nil s).symm, rfl, fun l hl => nomatch hl⟩
  | cons call calls ih =>
    intro s
    -- Failed or not, the first call has used up as many numbers as it left lines, so the rest counts on from there.
    obtain ⟨first, hfirst, hids, hcall⟩ := exists_write_eq_after s call.1 call.2
    obtain ⟨rest, hrest, hids', hcall'⟩ := ih (s.after first)
    refine ⟨first ++ rest, ?_, ?_, ?_⟩
    · rw [writeEach, List.foldl_cons, hfirst, after_append]
      exact hrest
    · rw [List.map_append, hids, hids', after_nextId, List.range'_append_1, List.length_append]
    · intro l hl
      rcases List.mem_append.1 hl with hl | hl
      · exact hcall l hl
      · exact hcall' l hl

/-- The lines of a run on a fresh sink are read back from its text. -/
theorem readLines?_after {fault : Nat → Option IoError} {id : Nat} {lines : List NodeLine}
    (hids : lines.map NodeLine.id = List.range' id lines.length) (hcall : ∀ l ∈ lines, IsCallLine l)
    (hword : id + lines.length ≤ UInt64.size) :
    readLines? (after ⟨.fresh fault, id⟩ lines).sink.written = some lines := by
  refine readLines?_text ?_ fun l hl => (hcall l hl).parse ?_
  · rw [after_written, Sink.fresh, String.empty_append, String.toList_join, List.flatMap_map]
  · have hl : l.id ∈ lines.map NodeLine.id := List.mem_map_of_mem hl
    rw [hids, List.mem_range'_1] at hl
    omega

/-- **A failing sink leaves a first part of the lines and never leads to a number being used twice.** On a sink whose
flushes from `k` on fail, a call fails exactly if the call that does not fail writes more than `k` lines. It leaves the
first `k + 1` of these lines, or all of them if they are fewer, and has used up as many numbers. So, in any run of calls
on one stream, whatever flushes fail, the numbers on the lines increase over the whole text. -/
theorem failed_write_leaves_first_lines :
    (∀ (s : LineStream) (k : Nat), s.sink.FailsFrom k → ∀ (limit : Option Nat) (n : Node), ∃ lines : List NodeLine,
      (∀ r : LineStream, r.sink.NeverFails → r.nextId = s.nextId → ∃ t, r.write limit n = (.ok (), t) ∧
        t.sink.written = r.sink.written ++ String.join (lines.map NodeLine.text) ∧
        t.nextId = r.nextId + lines.length) ∧
      ∃ result t, s.write limit n = (result, t) ∧
        ((∃ e, result = .error (.write e)) ↔ k < lines.length) ∧ (result = .ok () ↔ lines.length ≤ k) ∧
        t.sink.written =
          s.sink.written ++ String.join ((lines.take (min lines.length (k + 1))).map NodeLine.text) ∧
        t.nextId = s.nextId + min lines.length (k + 1)) ∧
    ∀ (fault : Nat → Option IoError) (id : Nat) (calls : List (Option Nat × Node)), ∃ lines : List NodeLine,
      let t := writeEach ⟨.fresh fault, id⟩ calls
      t.sink.written = String.join (lines.map NodeLine.text) ∧ lines.Pairwise (fun l m => l.id < m.id) ∧
        (t.nextId ≤ UInt64.size → readLines? t.sink.written = some lines) := by
  constructor
  · intro s k hk limit n
    refine ⟨(n.cut limit).numbered 0 none s.nextId, ?_, ?_⟩
    · intro r hr hid
      rw [write_eq_putLines, hid]
      exact ⟨_, putLines_of_no_fault _ fun j _ => hr _, rfl, by rw [after_nextId, hid]⟩
    · obtain ⟨result, hput, herror, hok⟩ := putLines_of_failsFrom hk ((n.cut limit).numbered 0 none s.nextId)
      rw [write_eq_putLines]
      refine ⟨result, _, hput, herror, hok, ?_, ?_⟩
      · rw [after_written, Nat.min_comm, ← List.take_eq_take_min]
      · rw [after_nextId, List.length_take, Nat.min_comm]
  · intro fault id calls
    obtain ⟨lines, hafter, hids, hcall⟩ := writeEach_eq_after calls ⟨.fresh fault, id⟩
    refine ⟨lines, ?_, ?_, ?_⟩
    · rw [hafter, after_written, Sink.fresh, String.empty_append]
    · rw [← List.pairwise_map (R := (· < ·)), hids]
      exact List.pairwise_lt_range'
    · rw [hafter]
      exact readLines?_after hids hcall

/-- A tree whose second line stands for a node with a child and a sibling. -/
def forkedTree : Node :=
  .root [.mk (.named .namespaceDecl "a") none [.mk (.plain .thisExpr) none []], .mk (.plain .thisExpr) none []]

/-- The next number is five, and all flushes but the first fail. -/
def failingStream : LineStream := ⟨.fresh fun j => if j = 0 then none else some (.os .noSpace), 5⟩

theorem forkedTree_cut_short : ∃ (lines : List NodeLine) (e : IoError) (t : LineStream), lines.length = 4 ∧
    failingStream.write none forkedTree = (.error (.write e), t) ∧
    t.sink.written = String.join ((lines.take 2).map NodeLine.text) ∧ t.nextId = 7 := by
  have hfails : failingStream.sink.FailsFrom 1 := by
    intro j
    cases j <;> simp [failingStream, Sink.fresh]
  obtain ⟨lines, hfull, result, t, hwrite, herror, -, htext, hid⟩ :=
    failed_write_leaves_first_lines.1 failingStream 1 hfails none forkedTree
  have hlength : lines.length = 4 := by
    obtain ⟨u, hu, -, huid⟩ := hfull ⟨.reliable, 5⟩ Sink.neverFails_reliable rfl
    have hnext : (LineStream.write ⟨.reliable, 5⟩ none forkedTree).2.nextId = 5 + 4 := rfl
    rw [hu, huid] at hnext
    exact Nat.add_left_cancel hnext
  rw [hlength] at herror htext hid
  obtain ⟨e, rfl⟩ := herror.2 (by decide)
  exact ⟨lines, e, t, hlength, hwrite, htext.trans String.empty_append, hid⟩

end LineStream

end SyntaxView
