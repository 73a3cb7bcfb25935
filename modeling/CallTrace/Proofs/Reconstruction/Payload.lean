import CallTrace.Proofs.Reconstruction.Report

namespace CallTrace

namespace Trace

/-- Calls that neither returned nor reverted give nothing back. -/
def OnlyEndsPay (t : Trace) : Prop := ∀ u ∈ t :: t.nested, u.outcome.hasData = false → u.data = []

theorem onlyEndsPay_ended {o : Outcome} {bs : Octets} :
    (ended o bs).OnlyEndsPay ↔ (o.hasData = false → bs = []) := by
  simp [OnlyEndsPay, nested, outcome, data]

theorem onlyEndsPay_step {s : Step} {rest : Trace} : (step s rest).OnlyEndsPay ↔ rest.OnlyEndsPay := by
  simp [OnlyEndsPay, nested, outcome, data]

/-- A call within a trace is one more to look at; the trace itself ends as what stands behind the call. -/
theorem onlyEndsPay_call {inner rest : Trace} :
    (call inner rest).OnlyEndsPay ↔ inner.OnlyEndsPay ∧ rest.OnlyEndsPay := by
  simp only [OnlyEndsPay, nested, outcome, data, List.forall_mem_cons, List.forall_mem_append]
  tauto

end Trace

namespace Reconstruction
open Attempt

def ErrorsAreSilent (rs : List Record) : Prop :=
  ∀ r, .step r ∈ rs → r.error ≠ none → r.outputOctets = .ok []

theorem errorsAreSilent_append {rs rs' : List Record} :
    ErrorsAreSilent (rs ++ rs') ↔ ErrorsAreSilent rs ∧ ErrorsAreSilent rs' := by
  simp only [ErrorsAreSilent, List.mem_append, or_imp, forall_and]

theorem errorsAreSilent_step {r : StepRecord} :
    ErrorsAreSilent [.step r] ↔ (r.error ≠ none → r.outputOctets = .ok []) := by
  simp [ErrorsAreSilent]

theorem onlyEndsPay_of_halted {keep : Keep} {r : StepRecord} {e : Json} {t : Trace}
    (hr : r.isMarker = false) (he : r.error = some e) (h : halted keep r e = .ok t) :
    t.OnlyEndsPay ↔ r.outputOctets = .ok [] := by
  have hdata := hasData_of_halted hr he h
  obtain ⟨o, bs, -, hbs, ⟨-, s, -, rfl⟩ | ⟨-, rfl⟩⟩ := halted_eq_ok h
  · rw [Trace.onlyEndsPay_step, Trace.onlyEndsPay_ended, hbs, Except.ok.injEq]
    exact forall_prop_of_true hdata
  · rw [Trace.onlyEndsPay_ended, hbs, Except.ok.injEq]
    exact forall_prop_of_true hdata

theorem data_of_summary {s : Summary} {o : Outcome} {bs : Octets} (h : s.ending = .ok (o, bs))
    (ho : o.hasData = false) : bs = [] := by
  unfold Summary.ending at h
  obtain ⟨output, -, h⟩ := bind_eq_ok.1 h
  split at h
  · cases h
    cases ho
  · obtain ⟨o', -, h⟩ := bind_eq_ok.1 h
    cases h
    rw [ho, if_neg Bool.false_ne_true]

section
variable [Limits] {keep : Keep} {depth : Nat} {last : Option StepRecord} {rs left : List Record}
  {t : Trace}

/-- Of what a frame takes in only errors decide whether it pays for other ends too. -/
theorem Reads.onlyEndsPay_iff (h : Reads keep depth last rs t left)
    (hmarks : ∀ r, .step r ∈ rs → r.isMarker = false) :
    ∃ taken, rs = taken ++ left ∧ (t.OnlyEndsPay ↔ ErrorsAreSilent taken) := by
  induction h with
  | closing hs he =>
    refine ⟨[], rfl, iff_of_true (Trace.onlyEndsPay_ended.2 fun ho => ?_) (by simp [ErrorsAreSilent])⟩
    rw [hasData_of_closing he] at ho
    cases ho
  | @summary depth last s left o bs hd he =>
    refine ⟨[.summary s], rfl, iff_of_true ?_ (by simp [ErrorsAreSilent])⟩
    exact Trace.onlyEndsPay_ended.2 (data_of_summary he)
  | @call depth last r rs inner left₁ rest left hd hroom hinner hrest ihInner ihRest =>
    obtain ⟨taken, hrs, hpay⟩ := ihInner hmarks
    obtain ⟨taken', rfl, hpay'⟩ := ihRest fun r h => hmarks r (hinner.suffix.subset h)
    refine ⟨taken ++ taken', by rw [hrs, List.append_assoc], ?_⟩
    rw [Trace.onlyEndsPay_call, errorsAreSilent_append, hpay, hpay']
  | @error depth last r left e t hd he ht =>
    obtain ⟨tail, htail, hleft⟩ := exists_tail depth left
    refine ⟨[.step r] ++ tail, congrArg _ hleft, ?_⟩
    -- Behind the error the call takes in no more than a summary.
    have hsilent : ErrorsAreSilent tail := by cases htail <;> simp [ErrorsAreSilent]
    rw [onlyEndsPay_of_halted (hmarks r List.mem_cons_self) he ht, errorsAreSilent_append,
      and_iff_left hsilent, errorsAreSilent_step]
    simp [he]
  | @step depth last r rs s rest left hd he hs hrest ih =>
    obtain ⟨taken, rfl, hpay⟩ := ih fun r h => hmarks r (List.mem_cons_of_mem _ h)
    refine ⟨[.step r] ++ taken, rfl, ?_⟩
    have hsilent : ErrorsAreSilent [.step r] := errorsAreSilent_step.2 (absurd he)
    rw [Trace.onlyEndsPay_step, errorsAreSilent_append, and_iff_right hsilent, hpay]

/-- In a trace only returns and reverts give something back just if no error in its log, markers apart,
leaves octets behind. -/
theorem ofLines_onlyEndsPay_iff {lines : List Line} (hrs : Record.ofLines lines = .ok rs)
    (h : ofLines keep lines = .ok t) :
    (∀ u ∈ t :: t.nested, u.outcome.hasData = false → u.data = []) ↔
      ∀ r, .step r ∈ rs → r.isMarker = false → r.error ≠ none → r.outputOctets = .ok [] := by
  obtain ⟨rs', hrs', hread⟩ := ofLines_eq_ok.1 h
  obtain rfl := Except.ok.inj (hrs.symm.trans hrs')
  have hmem (r : StepRecord) : .step r ∈ rs.filter (!·.isMarker) ↔ .step r ∈ rs ∧ r.isMarker = false := by
    rw [List.mem_filter, Bool.not_eq_true']
    rfl
  obtain ⟨taken, htaken, hpay⟩ := hread.onlyEndsPay_iff fun r hr => ((hmem r).1 hr).2
  rw [List.append_nil] at htaken
  subst htaken
  refine hpay.trans (forall_congr' fun r => ?_)
  rw [hmem, and_imp]

end

def payingError : List Line := [
  .value (.object [("pc", .int 0), ("op", .int 0xF1), ("depth", .int 1), ("gas", .int 9)]),
  .value (.object [("pc", .int 7), ("op", .int 0x56), ("depth", .int 2), ("gas", .int 8),
    ("error", .text "out of gas"), ("output", .text "0xab")]),
  .value (.object [("pc", .int 1), ("op", .int 0), ("depth", .int 1), ("gas", .text "0x2")])]

def payingErrorTrace : Trace :=
  .step ⟨0, 0xF1, 1, 9, 0, [], [], .empty⟩ <| .call (.ended .outOfGas [0xAB]) <|
    .step ⟨1, 0, 1, 2, 0, [], [], .empty⟩ (.ended .return [])

theorem ofLines_payingError : @ofLines .unbounded defaultKeep payingError = .ok payingErrorTrace := by
  let _ : Limits := .unbounded
  exact ofLines_eq_ok.2 ⟨_, rfl, .step rfl rfl rfl <| .call (by decide) rfl (.error rfl rfl rfl) <|
    .step rfl rfl rfl <| .closing .nil rfl⟩

theorem payingError_onlyEndsPay_iff :
    ∃ rs, Record.ofLines payingError = .ok rs ∧
      @ofLines .unbounded defaultKeep payingError = .ok payingErrorTrace ∧
      ((∀ u ∈ payingErrorTrace :: payingErrorTrace.nested, u.outcome.hasData = false → u.data = []) ↔
        ∀ r, .step r ∈ rs → r.isMarker = false → r.error ≠ none → r.outputOctets = .ok []) :=
  ⟨_, rfl, ofLines_payingError, @ofLines_onlyEndsPay_iff .unbounded _ _ _ _ rfl ofLines_payingError⟩

/-- A call that ran out of gas may give something back. -/
theorem not_onlyEndsPay_payingError :
    @ofLines .unbounded defaultKeep payingError = .ok payingErrorTrace ∧
      ¬ ∀ u ∈ payingErrorTrace :: payingErrorTrace.nested, u.outcome.hasData = false → u.data = [] := by
  refine ⟨ofLines_payingError, fun h => ?_⟩
  have hinner := h (.ended .outOfGas [0xAB]) (by simp [payingErrorTrace, Trace.nested]) rfl
  cases hinner

end Reconstruction

end CallTrace
