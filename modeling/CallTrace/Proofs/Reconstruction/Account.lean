import CallTrace.Proofs.Reconstruction.Reading
import CallTrace.Proofs.Record.Conversion
import CallTrace.Proofs.Trace.Steps

namespace CallTrace.Reconstruction
open Attempt

/-- Whether a step is one of the trace: it raised no error, or one that leaves the step in the trace. -/
def tells (r : StepRecord) : Bool :=
  match r.error with
  | none => true
  | some e => match Outcome.ofExecutionError e with
    | .ok o => o.isPostError
    | .error _ => false

def told? : Record → Option StepRecord
  | .step r => if tells r then some r else none
  | .summary _ => none

def stepsOf (keep : Keep) (rs : List Record) : Except Fault (List Step) :=
  (rs.filterMap told?).mapM (StepRecord.toStep keep)

theorem stepsOf_append {keep : Keep} {rs rs' : List Record} {ss ss' : List Step}
    (h : stepsOf keep rs = .ok ss) (h' : stepsOf keep rs' = .ok ss') :
    stepsOf keep (rs ++ rs') = .ok (ss ++ ss') := by
  unfold stepsOf at h h' ⊢
  rw [List.filterMap_append]
  exact mapM_append_eq_ok h h'

theorem stepsOf_step {keep : Keep} {r : StepRecord} {s : Step} (h : tells r = true)
    (hs : r.toStep keep = .ok s) : stepsOf keep [.step r] = .ok [s] := by
  simp [stepsOf, told?, h, hs]

theorem stepsOf_step_of_not_tells {keep : Keep} {r : StepRecord} (h : tells r = false) :
    stepsOf keep [.step r] = .ok [] := by
  simp [stepsOf, told?, h]

theorem tells_of_error {r : StepRecord} {e : Json} {o : Outcome} (he : r.error = some e)
    (ho : Outcome.ofExecutionError e = .ok o) : tells r = o.isPostError := by
  simp only [tells, he, ho]

/-- The summary that the outermost call takes in where it ends. -/
inductive Tail (depth : Nat) : List Record → Prop where
  | none : Tail depth []
  | summary (s : Summary) (h : depth ≤ 1) : Tail depth [.summary s]

theorem exists_tail (depth : Nat) (rs : List Record) :
    ∃ tail, Tail depth tail ∧ rs = tail ++ skipSummary depth rs := by
  unfold skipSummary
  split
  · rename_i s rs
    split
    · exact ⟨_, .summary s (Nat.le_of_eq ‹_›), rfl⟩
    · exact ⟨_, .none, rfl⟩
  · exact ⟨_, .none, rfl⟩

theorem stepsOf_tail {keep : Keep} {depth : Nat} {tail : List Record} (h : Tail depth tail) :
    stepsOf keep tail = .ok [] := by
  cases h <;> rfl

section
variable [Limits] {keep : Keep} {depth : Nat} {last : Option StepRecord} {rs left : List Record}
  {t : Trace}

/-- A frame takes in the records before those it leaves: steps, and a summary behind them if the call is the
outermost one. -/
theorem Reads.split (h : Reads keep depth last rs t left) (hpos : 0 < depth) :
    ∃ body tail, rs = body ++ (tail ++ left) ∧ (∀ s, .summary s ∉ body) ∧ Tail depth tail ∧
      stepsOf keep body = .ok t.allSteps := by
  induction h with
  | closing hs he => exact ⟨[], [], rfl, by simp, .none, rfl⟩
  | @summary depth last s left o bs hd he => exact ⟨[], [.summary s], rfl, by simp, .summary s hd, rfl⟩
  | call hlt hroom hinner hrest ihInner ihRest =>
    obtain ⟨body, tail, hrs, hbody, htail, hsteps⟩ := ihInner (Nat.succ_pos _)
    obtain ⟨body', tail', hrs', hbody', htail', hsteps'⟩ := ihRest hpos
    -- A summary ends the outermost call alone, so none stands between the two bodies.
    cases htail with
    | none =>
      refine ⟨body ++ body', tail', by rw [hrs, hrs']; simp, ?_, htail', stepsOf_append hsteps hsteps'⟩
      intro s hs
      exact (List.mem_append.1 hs).elim (hbody s) (hbody' s)
    | summary s h => omega
  | @error depth last r rs e t hr he ht =>
    obtain ⟨tail, htail, hrs⟩ := exists_tail depth rs
    refine ⟨[.step r], tail, congrArg _ hrs, by simp, htail, ?_⟩
    obtain ⟨o, bs, ho, -, ⟨hpost, s, hs, rfl⟩ | ⟨hpost, rfl⟩⟩ := halted_eq_ok ht
    · exact stepsOf_step (by rw [tells_of_error he ho, hpost]) hs
    · exact stepsOf_step_of_not_tells (by rw [tells_of_error he ho, hpost])
  | @step depth last r rs s rest left hr he hs hrest ih =>
    obtain ⟨body, tail, hrs, hbody, htail, hsteps⟩ := ih hpos
    refine ⟨.step r :: body, tail, congrArg _ hrs, by simpa using hbody, htail, ?_⟩
    exact stepsOf_append (stepsOf_step (by simp only [tells, he]) hs) hsteps

/-- Of records that a frame takes in altogether, the steps of its trace are those that the records tell of. -/
theorem Reads.stepsOf_eq (h : Reads keep depth last rs t []) (hpos : 0 < depth) :
    stepsOf keep rs = .ok t.allSteps := by
  obtain ⟨body, tail, rfl, -, htail, hsteps⟩ := h.split hpos
  rw [List.append_nil, ← List.append_nil t.allSteps]
  exact stepsOf_append hsteps (stepsOf_tail htail)

/-- The steps of a frame have the depth of the frame, those of a call within it one more. -/
theorem Reads.depth_placed (h : Reads keep depth last rs t left) (k : Nat) :
    ∀ p ∈ t.placed k, p.2.depth + k = depth + p.1 := by
  induction h generalizing k with
  | closing hs he => simp [Trace.placed]
  | summary hd he => simp [Trace.placed]
  | call hlt hroom hinner hrest ihInner ihRest =>
    intro p hp
    rcases List.mem_append.1 hp with hp | hp
    · have := ihInner (k + 1) p hp
      push_cast at this
      omega
    · exact ihRest k p hp
  | error hr he ht =>
    obtain ⟨o, bs, -, -, ⟨-, s, hs, rfl⟩ | ⟨-, rfl⟩⟩ := halted_eq_ok ht
    · intro p hp
      obtain rfl := List.mem_singleton.1 hp
      rw [StepRecord.depth_of_toStep hs, hr]
    · simp [Trace.placed]
  | step hr he hs hrest ih =>
    intro p hp
    rcases List.mem_cons.1 hp with rfl | hp
    · rw [StepRecord.depth_of_toStep hs, hr]
    · exact ih k p hp

/-- The trace of a log has the steps that the log tells of, all of them, once and in order; a step that lies
in `k` calls has depth `k + 1`; and a summary is the last record of such a log. -/
theorem ofLines_tells_every_step {lines : List Line} (h : ofLines keep lines = .ok t) :
    ∃ rs, (Record.ofLines lines).map (·.filter (!·.isMarker)) = .ok rs ∧
      stepsOf keep rs = .ok ((t.placed 0).map Prod.snd) ∧
      (∀ p ∈ t.placed 0, p.2.depth = p.1 + 1) ∧
      ∀ before s after, rs = before ++ .summary s :: after → after = [] := by
  obtain ⟨rs, hrs, hread⟩ := ofLines_eq_ok.1 h
  obtain ⟨body, tail, hsplit, hbody, htail, hsteps⟩ := hread.split Nat.one_pos
  rw [List.append_nil] at hsplit
  refine ⟨body ++ tail, by rw [hrs, map_ok, hsplit], ?_, ?_, ?_⟩
  · rw [Trace.map_snd_placed, ← List.append_nil t.allSteps]
    exact stepsOf_append hsteps (stepsOf_tail htail)
  · intro p hp
    have := hread.depth_placed 0 p hp
    push_cast at this
    omega
  · intro before s after hlast
    rcases List.eq_nil_or_concat after with rfl | ⟨front, r, rfl⟩
    · rfl
    · exfalso
      cases htail with
      | none => exact hbody s (by rw [← List.append_nil body, hlast]; simp)
      | summary s' hd =>
        have hfront : body ++ [.summary s'] = (before ++ .summary s :: front) ++ [r] :=
          hlast.trans (by simp)
        exact hbody s (by rw [(List.append_inj' hfront rfl).1]; simp)

end

def failedCall : List Line := [
  .value (.object [("pc", .int 0), ("op", .int 0xF1), ("depth", .int 1), ("gas", .int 9)]),
  .text " ",
  .value (.object [("pc", .int 7), ("op", .int 0x56), ("depth", .int 2), ("gas", .int 8),
    ("error", .text "invalid jump destination")]),
  .value (.object [("pc", .int 7), ("op", .int 0x56), ("depth", .int 2), ("gas", .int 8),
    ("error", .text "execution reverted")]),
  .value (.object [("pc", .int 1), ("op", .int 0), ("depth", .int 1), ("gas", .text "0x2")]),
  .value (.object [("output", .text "0x")])]

def failedCallTrace : Trace :=
  .step ⟨0, 0xF1, 1, 9, 0, [], [], .empty⟩ <|
    .call (.step ⟨7, 0x56, 2, 8, 0, [], [], .empty⟩ (.ended .invalidJumpdest [])) <|
      .step ⟨1, 0, 1, 2, 0, [], [], .empty⟩ (.ended .return [])

theorem ofLines_failedCall : @ofLines .unbounded defaultKeep failedCall = .ok failedCallTrace := by
  let _ : Limits := .unbounded
  exact ofLines_eq_ok.2 ⟨_, rfl, .step rfl rfl rfl <| .call (by decide) rfl (.error rfl rfl rfl) <|
    .step rfl rfl rfl <| .summary (by decide) rfl⟩

theorem failedCall_tells_every_step :
    @ofLines .unbounded defaultKeep failedCall = .ok failedCallTrace ∧
    ∃ rs, (Record.ofLines failedCall).map (·.filter (!·.isMarker)) = .ok rs ∧
      stepsOf defaultKeep rs = .ok ((failedCallTrace.placed 0).map Prod.snd) ∧
      (∀ p ∈ failedCallTrace.placed 0, p.2.depth = p.1 + 1) ∧
      ∀ before s after, rs = before ++ .summary s :: after → after = [] :=
  ⟨ofLines_failedCall, @ofLines_tells_every_step .unbounded _ _ _ ofLines_failedCall⟩

end CallTrace.Reconstruction
