import CallTrace.Proofs.Reconstruction.Reading
import CallTrace.Proofs.Record.Conversion
import CallTrace.Proofs.Outcome.Reported
import CallTrace.Proofs.Trace.Steps

namespace CallTrace.Reconstruction
open Attempt

/-- How a call ends with this step, if it gives back a range of its memory or nothing. -/
inductive Ends (s : Step) : Outcome → Octets → Prop where
  | stop (h : s.op = Opcode.stop ∨ s.op = Opcode.selfdestruct) : Ends s .return []
  | ret {offset length : Int} {below : List Int} (h : s.op = Opcode.ret)
    (hst : s.stack.reverse = offset :: length :: below) :
    Ends s .return (Memory.range s.memory offset length)
  | revert {offset length : Int} {below : List Int} (h : s.op = Opcode.revert)
    (hst : s.stack.reverse = offset :: length :: below) :
    Ends s .revert (Memory.range s.memory offset length)

theorem Ends.outcome {s : Step} {o : Outcome} {bs : Octets} (h : Ends s o bs) :
    o = .return ∨ o = .revert := by
  cases h with
  | stop => exact .inl rfl
  | ret => exact .inl rfl
  | revert => exact .inr rfl

/-- The top of the stack is kept, if anything of it is. -/
theorem reverse_keepTop {α : Type} {size : Nat} {stack kept below : List α} {x y : α} (hsize : 2 ≤ size)
    (h : keepTop (.top size) stack = .ok kept) (hst : stack.reverse = x :: y :: below) :
    ∃ below', kept.reverse = x :: y :: below' := by
  rw [keepTop_natural] at h
  obtain rfl := Except.ok.inj h
  have hlen : stack.length = below.length + 2 := by
    rw [← List.length_reverse, hst, List.length_cons, List.length_cons]
  obtain ⟨n, hn⟩ : ∃ n, stack.length - (stack.length - size) = n + 2 :=
    ⟨stack.length - (stack.length - size) - 2, by omega⟩
  refine ⟨below.take n, ?_⟩
  rw [List.reverse_drop, hn, hst, List.take_succ_cons, List.take_succ_cons]

theorem reverse_stack {size : Nat} {r : StepRecord} {s : Step} {offset length : Int} (hsize : 2 ≤ size)
    (hs : r.toStep (.top size) = .ok s) (h : r.operands? = some (offset, length)) :
    ∃ below, s.stack.reverse = offset :: length :: below := by
  obtain ⟨stack, -, kept, -, -, hst, -, hk, -, -, rfl⟩ := StepRecord.toStep_eq_ok.1 hs
  obtain ⟨j, k, below, hr, hj, hk'⟩ := StepRecord.operands?_eq_some.1 h
  -- The operands are read off the whole stack of the record, of which the step keeps two items at least.
  have hread := List.rel_reverse (mapM_eq_ok.1 hst)
  rw [hr] at hread
  obtain ⟨o, t, ho, hread, hstack⟩ := List.forall₂_cons_left_iff.1 hread
  obtain ⟨l, t', hl, -, rfl⟩ := List.forall₂_cons_left_iff.1 hread
  rw [hj] at ho
  rw [hk'] at hl
  obtain rfl := Except.ok.inj ho
  obtain rfl := Except.ok.inj hl
  exact reverse_keepTop hsize hk hstack

theorem ends_of_ending [Limits] {size : Nat} {r : StepRecord} {s : Step} {o : Outcome} {bs : Octets}
    (hsize : 2 ≤ size) (hs : r.toStep (.top size) = .ok s) (h : r.ending = .ok (o, bs)) : Ends s o bs := by
  have hend := StepRecord.end?_of_ending (StepRecord.memory_of_toStep hs) h
  have hop := StepRecord.op_of_toStep hs
  rcases StepRecord.ending_cases s.memory r with ⟨hstop, -, hending, -⟩ | ⟨_, hdata, -, heq⟩ | ⟨-, hending, -⟩
  · cases hending.symm.trans h
    exact .stop (hop ▸ hstop)
  · rw [heq] at hend
    obtain ⟨⟨offset, length⟩, hp, he⟩ := Option.map_eq_some_iff.1 hend
    obtain ⟨below, hst⟩ := reverse_stack hsize hs hp
    cases he
    rcases hdata with ⟨hret, rfl⟩ | ⟨hrev, rfl⟩
    · exact .ret (hop.trans hret) hst
    · exact .revert (hop.trans hrev) hst
  · cases hending.symm.trans h

def lastStep? (keep : Keep) (last : Option StepRecord) : Option Step :=
  last.bind fun r => (r.toStep keep).toOption

/-- How a frame ended that had read `last` before its trace: by its own last step, or by an error among the
records, whose step is the last thing in the trace if it belongs there. -/
inductive Accounted (keep : Keep) (rs : List Record) (last : Option StepRecord) (t : Trace) : Prop where
  | step {s : Step} (hs : (t.steps.getLast?.or (lastStep? keep last)) = some s)
    (he : Ends s t.outcome t.data)
  | error {r : StepRecord} {e : Json} (hr : .step r ∈ rs) (he : r.error = some e)
    (ho : Outcome.ofExecutionError e = .ok t.outcome)
    (hs : t.outcome.isPostError = true → ∃ before s, r.toStep keep = .ok s ∧
      t.elements = before ++ [.step s])

section
variable {keep : Keep} {last : Option StepRecord} {whole : List Record} {t : Trace}

theorem accounted_of_halted {r : StepRecord} {e : Json} (hr : .step r ∈ whole) (he : r.error = some e)
    (h : halted keep r e = .ok t) : Accounted keep whole last t := by
  obtain ⟨o, bs, ho, -, ⟨hpost, s, hs, rfl⟩ | ⟨hpost, rfl⟩⟩ := halted_eq_ok h
  · exact .error hr he ho fun _ => ⟨[], s, hs, rfl⟩
  · exact .error hr he ho fun h => by cases hpost.symm.trans h

theorem Accounted.before_step {r : StepRecord} {s : Step} (hs : r.toStep keep = .ok s)
    (h : Accounted keep whole (some r) t) : Accounted keep whole last (.step s t) := by
  cases h with
  | @step s' hs' he =>
    refine .step (s := s') ?_ he
    rw [Trace.steps, List.getLast?_cons, Option.some_or, ← hs', lastStep?, Option.bind_some, hs]
    cases t.steps.getLast? <;> rfl
  | error hr he ho hpost =>
    refine .error hr he ho fun hp => ?_
    obtain ⟨before, s', hs', helements⟩ := hpost hp
    exact ⟨.step s :: before, s', hs', by rw [Trace.elements, helements, List.cons_append]⟩

theorem Accounted.behind_call (inner : Trace) (h : Accounted keep whole last t) :
    Accounted keep whole last (.call inner t) := by
  cases h with
  | step hs he => exact .step hs he
  | error hr he ho hpost =>
    refine .error hr he ho fun hp => ?_
    obtain ⟨before, s', hs', helements⟩ := hpost hp
    exact ⟨.call inner :: before, s', hs', by rw [Trace.elements, helements, List.cons_append]⟩

/-- Without markers among the records a revert stands for the instruction alone. -/
theorem outcome_of_unmarked {r : StepRecord} {e : Json} {o : Outcome} (hr : r.isMarker = false)
    (he : r.error = some e) (ho : Outcome.ofExecutionError e = .ok o) : o ≠ .return ∧ o ≠ .revert := by
  refine ⟨(Outcome.of_ofExecutionError ho).1, ?_⟩
  rintro rfl
  obtain ⟨s, rfl, hs⟩ := Outcome.ofExecutionError_eq_ok.1 ho
  obtain rfl := Outcome.eq_revertText hs
  simp [StepRecord.isMarker, he] at hr

/-- What a call gives back after an error and the records that it leaves, if the output of the summary counted for a
call that reverted. -/
def withSummary (depth : Nat) (o : Outcome) (bs : Octets) : List Record → Except Fault (Octets × List Record)
  | .summary s :: rs =>
    if depth = 1 then
      if o = .revert then do return (← Hex.octets (s.output.getD (.text "0x")), rs)
      else .ok (bs, rs)
    else .ok (bs, .summary s :: rs)
  | rs => .ok (bs, rs)

/-- It never does: the error of a record that is no marker is no revert. So the summary is only passed over. -/
theorem withSummary_of_halted {r : StepRecord} {e : Json} (hr : r.isMarker = false) (he : r.error = some e)
    (h : halted keep r e = .ok t) (depth : Nat) (rs : List Record) :
    withSummary depth t.outcome t.data rs = .ok (t.data, skipSummary depth rs) := by
  have hnot : t.outcome ≠ .revert := by
    obtain ⟨o, bs, ho, -, ⟨-, s, -, rfl⟩ | ⟨-, rfl⟩⟩ := halted_eq_ok h
    · exact (outcome_of_unmarked hr he ho).2
    · exact (outcome_of_unmarked hr he ho).2
  cases rs with
  | nil => rfl
  | cons first rs =>
    cases first with
    | step r => rfl
    | summary s =>
      by_cases hdepth : depth = 1
      · simp only [withSummary, skipSummary, if_pos hdepth, if_neg hnot]
      · simp only [withSummary, skipSummary, if_neg hdepth]

end

section
variable [Limits] {size depth : Nat} {last : Option StepRecord} {rs whole left : List Record} {t : Trace}

theorem accounted_of_closing {o : Outcome} {bs : Octets} (hsize : 2 ≤ size)
    (hlast : ∀ r, last = some r → ∃ s, r.toStep (.top size) = .ok s) (h : closing last = .ok (o, bs)) :
    Accounted (.top size) whole last (.ended o bs) := by
  cases last with
  | none => cases h
  | some r =>
    obtain ⟨s, hs⟩ := hlast r rfl
    refine .step (s := s) ?_ (ends_of_ending hsize hs h)
    simp [Trace.steps, lastStep?, hs, Except.toOption]

/-- A frame accounts for its end unless a summary ends it, and so do all calls within it. -/
theorem Reads.accounted (hsize : 2 ≤ size) (h : Reads (.top size) depth last rs t left) (hpos : 0 < depth)
    (hsub : rs ⊆ whole) (hlast : ∀ r, last = some r → ∃ s, r.toStep (.top size) = .ok s) :
    (1 < depth → Accounted (.top size) whole last t) ∧
      ∀ u ∈ t.nested, Accounted (.top size) whole none u := by
  induction h with
  | closing hs he => exact ⟨fun _ => accounted_of_closing hsize hlast he, by simp [Trace.nested]⟩
  | summary hd he => exact ⟨fun hdeep => by omega, by simp [Trace.nested]⟩
  | @call depth last r rs inner left₁ rest left hd hroom hinner hrest ihInner ihRest =>
    obtain ⟨hself, hnested⟩ := ihInner (by omega) hsub (by simp)
    -- The calls behind this one start from the same last step, whatever ran in between.
    obtain ⟨hself', hnested'⟩ := ihRest hpos (List.Subset.trans hinner.suffix.subset hsub) hlast
    refine ⟨fun hdeep => (hself' hdeep).behind_call inner, fun u hu => ?_⟩
    rcases List.mem_cons.1 hu with rfl | hu
    · exact hself (by omega)
    · exact (List.mem_append.1 hu).elim (hnested u) (hnested' u)
  | error hd he ht =>
    refine ⟨fun _ => accounted_of_halted (hsub List.mem_cons_self) he ht, ?_⟩
    obtain ⟨o, bs, -, -, ⟨-, s, -, rfl⟩ | ⟨-, rfl⟩⟩ := halted_eq_ok ht <;> simp [Trace.nested]
  | @step depth last r rs s rest left hd he hs hrest ih =>
    have hlast' : ∀ r', some r = some r' → ∃ s, r'.toStep (.top size) = .ok s :=
      fun r' hr' => ⟨s, Option.some.inj hr' ▸ hs⟩
    obtain ⟨hself, hnested⟩ := ih hpos (fun _ h => hsub (List.mem_cons_of_mem _ h)) hlast'
    exact ⟨fun hdeep => (hself hdeep).before_step hs, hnested⟩

/-- A call within another one that gives something back does so by its own last step, and one that failed in
an instruction of its own ends with the step that raised the error. -/
theorem ofLines_nested_end {lines : List Line} (hsize : 2 ≤ size) (h : ofLines (.top size) lines = .ok t) :
    ∃ rs, (Record.ofLines lines).map (·.filter (!·.isMarker)) = .ok rs ∧
      (∀ u ∈ t.nested, u.outcome ≠ .unknown ∧
        (u.outcome = .return ∨ u.outcome = .revert →
          ∃ s, u.steps.getLast? = some s ∧ Ends s u.outcome u.data) ∧
        (u.outcome.isPostError = true → ∃ before s r e, u.elements = before ++ [.step s] ∧ .step r ∈ rs ∧
          r.toStep (.top size) = .ok s ∧ r.error = some e ∧ Outcome.ofExecutionError e = .ok u.outcome)) ∧
      ∀ r e u, .step r ∈ rs → r.error = some e → halted (.top size) r e = .ok u →
        u.outcome ≠ .return ∧ u.outcome ≠ .revert := by
  obtain ⟨rs, hrs, hread⟩ := ofLines_eq_ok.1 h
  have hunmarked : ∀ r, .step r ∈ rs.filter (!·.isMarker) → r.isMarker = false := by
    intro r hr
    simpa [Record.isMarker] using (List.mem_filter.1 hr).2
  refine ⟨_, by rw [hrs, map_ok], ?_, ?_⟩
  · intro u hu
    have hend := (hread.accounted hsize Nat.one_pos (List.Subset.refl _) (by simp)).2 u hu
    cases hend with
    | step hs he =>
      rw [lastStep?, Option.bind_none, Option.or_none] at hs
      have ho := he.outcome
      refine ⟨?_, fun _ => ⟨_, hs, he⟩, ?_⟩
      · rcases ho with ho | ho <;> simp [ho]
      · rcases ho with ho | ho <;> simp [ho, Outcome.isPostError]
    | error hr he ho hpost =>
      -- The only error that could pass for an end of the call itself is the text of the markers.
      obtain ⟨hret, hrev⟩ := outcome_of_unmarked (hunmarked _ hr) he ho
      refine ⟨(Outcome.of_ofExecutionError ho).2, fun h => absurd h (not_or.2 ⟨hret, hrev⟩), fun hp => ?_⟩
      obtain ⟨before, s, hs, helements⟩ := hpost hp
      exact ⟨before, s, _, _, helements, hr, hs, he, ho⟩
  · intro r e u hr he hu
    obtain ⟨o, bs, ho, -, ⟨-, s, -, rfl⟩ | ⟨-, rfl⟩⟩ := halted_eq_ok hu
    · exact outcome_of_unmarked (hunmarked r hr) he ho
    · exact outcome_of_unmarked (hunmarked r hr) he ho

end

def returningCall : List Line := [
  .value (.object [("pc", .int 0), ("op", .int 0xF1), ("depth", .int 1), ("gas", .int 9)]),
  .value (.object [("pc", .int 7), ("op", .int 0xF3), ("depth", .int 2), ("gas", .int 8),
    ("stack", .list [.int 5, .text "0x2", .int 1]), ("memory", .text "0x0a0b")]),
  .value (.object [("pc", .int 1), ("op", .int 0), ("depth", .int 1), ("gas", .text "0x2")])]

def returningCallTrace : Trace :=
  .step ⟨0, 0xF1, 1, 9, 0, [], [], .empty⟩ <|
    .call (.step ⟨7, 0xF3, 2, 8, 3, [2, 1], [10, 11], .empty⟩ (.ended .return [11, 0])) <|
      .step ⟨1, 0, 1, 2, 0, [], [], .empty⟩ (.ended .return [])

theorem ofLines_returningCall : @ofLines .unbounded (.top 2) returningCall = .ok returningCallTrace := by
  let _ : Limits := .unbounded
  exact ofLines_eq_ok.2 ⟨_, rfl, .step rfl rfl rfl <|
    .call (by decide) rfl (.step rfl rfl rfl <| .closing (.above (by decide)) rfl) <|
      .step rfl rfl rfl <| .closing .nil rfl⟩

theorem returningCall_nested_end :
    @ofLines .unbounded (.top 2) returningCall = .ok returningCallTrace ∧
    ∃ rs, (Record.ofLines returningCall).map (·.filter (!·.isMarker)) = .ok rs ∧
      (∀ u ∈ returningCallTrace.nested, u.outcome ≠ .unknown ∧
        (u.outcome = .return ∨ u.outcome = .revert →
          ∃ s, u.steps.getLast? = some s ∧ Ends s u.outcome u.data) ∧
        (u.outcome.isPostError = true → ∃ before s r e, u.elements = before ++ [.step s] ∧ .step r ∈ rs ∧
          r.toStep (.top 2) = .ok s ∧ r.error = some e ∧ Outcome.ofExecutionError e = .ok u.outcome)) ∧
      ∀ r e u, .step r ∈ rs → r.error = some e → halted (.top 2) r e = .ok u →
        u.outcome ≠ .return ∧ u.outcome ≠ .revert :=
  ⟨ofLines_returningCall, @ofLines_nested_end .unbounded 2 _ _ (Nat.le_refl 2) ofLines_returningCall⟩

end CallTrace.Reconstruction
