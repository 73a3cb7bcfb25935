import CallTrace.Proofs.Reconstruction.Visit
import CallTrace.Proofs.Record.Flaw
import CallTrace.Proofs.Trace.Document

namespace CallTrace.Reconstruction
open Attempt

/-- A step with an error that is no text, or with a part that is flawed and that the error calls for. -/
inductive FlawedHalt (keep : Keep) (r : StepRecord) (e : Json) : Prop where
  | text (h : ∀ t, e ≠ .text t)
  | step {o : Outcome} (ho : Outcome.ofExecutionError e = .ok o) (hpost : o.isPostError = true)
    (hstep : FlawedStep r)
  | output {o : Outcome} {t : Text} (ho : Outcome.ofExecutionError e = .ok o)
    (hstep : o.isPostError = true → ∃ s, r.toStep keep = .ok s) (houtput : r.output = some (.text t))
    (ht : Hex.IsOddLine t)

inductive Flawed (keep : Keep) : Place → Prop where
  | closing {depth r rs s} (hstops : Stops depth rs) (hs : r.toStep keep = .ok s)
    (hover : r.Overruns s.memory) : Flawed keep ⟨depth, some r, rs⟩
  | summary {depth last s rs} (hd : depth ≤ 1) (hs : FlawedSummary s) :
    Flawed keep ⟨depth, last, .summary s :: rs⟩
  | error {depth last r rs e} (hd : r.depth = depth) (he : r.error = some e) (hr : FlawedHalt keep r e) :
    Flawed keep ⟨depth, last, .step r :: rs⟩
  | step {depth last r rs} (hd : r.depth = depth) (he : r.error = none) (hr : FlawedStep r) :
    Flawed keep ⟨depth, last, .step r :: rs⟩

variable {size : Nat}

theorem escapes_halted {r : StepRecord} {e : Json} :
    Escapes (halted (.top size) r e) ↔ FlawedHalt (.top size) r e := by
  rw [halted_eq]
  constructor
  · intro h
    rcases escapes_bind.1 h with h | ⟨o, ho, h⟩
    · exact .text (Outcome.escapes_ofExecutionError.1 h)
    rcases escapes_bind.1 h with h | ⟨step?, hstep, h⟩
    · unfold raised? at h
      by_cases hpost : o.isPostError = true
      · rw [if_pos hpost, escapes_map] at h
        exact .step ho hpost (escapes_toStep.1 h)
      · rw [if_neg hpost] at h
        exact absurd h (not_escapes_ok _)
    rcases escapes_bind.1 h with h | ⟨bs, -, h⟩
    · obtain ⟨t, houtput, ht⟩ := escapes_outputOctets.1 h
      refine .output ho (fun hpost => ?_) houtput ht
      rw [raised?, if_pos hpost, map_eq_ok] at hstep
      obtain ⟨s, hs, -⟩ := hstep
      exact ⟨s, hs⟩
    · exact absurd h (not_escapes_ok _)
  · intro h
    cases h with
    | text h => exact escapes_bind.2 (.inl (Outcome.escapes_ofExecutionError.2 h))
    | step ho hpost hstep =>
      rw [ho, ok_bind, raised?, if_pos hpost]
      exact escapes_bind.2 (.inl (escapes_map.2 (escapes_toStep.2 hstep)))
    | @output o t ho hstep houtput ht =>
      have houtput := escapes_outputOctets.2 ⟨t, houtput, ht⟩
      rw [ho, ok_bind, raised?]
      by_cases hpost : o.isPostError = true
      · obtain ⟨s, hs⟩ := hstep hpost
        rw [if_pos hpost, hs, map_ok, ok_bind]
        exact escapes_bind.2 (.inl houtput)
      · rw [if_neg hpost, ok_bind]
        exact escapes_bind.2 (.inl houtput)

/-- A place fails with a fault that nobody looks out for just if it is flawed. -/
theorem fails_stray_iff {p : Place} (hp : p.Converted (.top size)) :
    (∃ f, @Fails .unbounded (.top size) p f ∧ f.Stray) ↔ Flawed (.top size) p := by
  let _ : Limits := .unbounded
  constructor
  · rintro ⟨f, hf, hstray⟩
    cases hf with
    | tooDeep hd hroom => exact absurd rfl hstray.2
    | @closing depth last rs f hs hf =>
      cases last with
      -- A call without a step of its own fails within the domain.
      | none =>
        cases hf
        cases hstray.1
      | some r =>
        obtain ⟨s, hr⟩ := hp r rfl
        exact .closing hs hr ((escapes_ending hr).1 ⟨f, hf, hstray⟩)
    | summary hd hf => exact .summary hd (escapes_summary_ending.1 ⟨f, hf, hstray⟩)
    | error hd he hf => exact .error hd he (escapes_halted.1 ⟨f, hf, hstray⟩)
    | step hd he hf => exact .step hd he (escapes_toStep.1 ⟨f, hf, hstray⟩)
  · intro h
    cases h with
    | closing hs hr hover =>
      obtain ⟨f, hf, hstray⟩ := (escapes_ending hr).2 hover
      exact ⟨f, .closing hs hf, hstray⟩
    | summary hd hs =>
      obtain ⟨f, hf, hstray⟩ := escapes_summary_ending.2 hs
      exact ⟨f, .summary hd hf, hstray⟩
    | error hd he hr =>
      obtain ⟨f, hf, hstray⟩ := escapes_halted.2 hr
      exact ⟨f, .error hd he hf, hstray⟩
    | step hd he hr =>
      obtain ⟨f, hf, hstray⟩ := escapes_toStep.2 hr
      exact ⟨f, .step hd he hf, hstray⟩

def start (rs : List Record) : Place := ⟨1, none, rs.filter (!·.isMarker)⟩

theorem escapes_read (rs : List Record) :
    Escapes (@Place.read .unbounded (.top size) (start rs)) ↔
      ∃ q, @Reaches .unbounded (.top size) (start rs) q ∧ Flawed (.top size) q := by
  let _ : Limits := .unbounded
  have hstart : (start rs).Converted (.top size) := nofun
  constructor
  · rintro ⟨f, hf, hstray⟩
    obtain ⟨q, hq, hfails⟩ := read_eq_error.1 hf
    exact ⟨q, hq, (fails_stray_iff (hq.converted hstart)).1 ⟨f, hfails, hstray⟩⟩
  · rintro ⟨q, hq, hflawed⟩
    obtain ⟨f, hfails, hstray⟩ := (fails_stray_iff (hq.converted hstart)).2 hflawed
    exact ⟨f, read_eq_error.2 ⟨q, hq, hfails⟩, hstray⟩

theorem escapes_ofRecords [Limits] {keep : Keep} (rs : List Record) :
    Escapes (ofRecords keep rs) ↔ Escapes ((start rs).read keep) := by
  rw [ofRecords_eq]
  show Escapes (if (rs.filter (!·.isMarker)).isEmpty then _ else (start rs).read keep >>= _) ↔ _
  by_cases hempty : (rs.filter (!·.isMarker)).isEmpty = true
  · -- Without records both ways fail within the domain, if not with the same fault.
    rw [if_pos hempty, start, List.isEmpty_iff.1 hempty, Place.read, read_of_stops .nil]
    exact iff_of_false (not_escapes_of_isDomain rfl) (not_escapes_of_isDomain rfl)
  · rw [if_neg hempty, escapes_bind, or_iff_left]
    rintro ⟨⟨t, left⟩, -, h⟩
    cases left with
    | nil => exact not_escapes_ok _ h
    | cons next left => exact not_escapes_of_isDomain rfl h

/-- A log of text gives, for steps with so many stack items, a trace that can be written, or a fault of the
domain. The nesting that a machine has room for is left out of account. -/
def Contained (size : Nat) (lines : List Text) : Prop :=
  match @ofLines .unbounded (.top size) (lines.map .text) with
  | .ok t => ∀ abbreviate, ∃ j, @Trace.toJson .unbounded abbreviate t = .ok j
  | .error f => f.isDomain = true ∨ f = .tooDeep

theorem contained_iff_not_escapes (lines : List Text) :
    Contained size lines ↔ ¬ Escapes (@ofLines .unbounded (.top size) (lines.map .text)) ∧
      ∀ t, @ofLines .unbounded (.top size) (lines.map .text) = .ok t → ∀ s ∈ t.allSteps, s.Writable := by
  unfold Contained
  cases @ofLines .unbounded (.top size) (lines.map .text) with
  | error f =>
    rw [escapes_error, Fault.Stray, not_and_or, Bool.not_eq_false, not_not]
    simp
  | ok t =>
    simp only [Trace.exists_toJson_eq_ok, forall_const, not_escapes_ok, not_false_eq_true, true_and,
      Except.ok.injEq, forall_eq']

/-- A log is contained unless it comes by a flawed place, or gives a trace that shows a negative number. -/
theorem contained_iff (size : Nat) (lines : List Text) : Contained size lines ↔
    (∀ rs q, Record.ofLines (lines.map .text) = .ok rs → @Reaches .unbounded (.top size) (start rs) q →
      ¬ Flawed (.top size) q) ∧
    ∀ t, @ofLines .unbounded (.top size) (lines.map .text) = .ok t → ∀ s ∈ t.allSteps, s.Writable := by
  have hescapes : Escapes (@ofLines .unbounded (.top size) (lines.map .text)) ↔
      ∃ rs q, Record.ofLines (lines.map .text) = .ok rs ∧ @Reaches .unbounded (.top size) (start rs) q ∧
        Flawed (.top size) q := by
    unfold ofLines
    rw [escapes_bind, or_iff_right (Record.not_escapes_ofLines lines)]
    simp only [@escapes_ofRecords .unbounded, escapes_read, exists_and_left]
  rw [contained_iff_not_escapes, hescapes]
  refine and_congr_left' ?_
  constructor
  · intro h rs q hrs hreach hflawed
    exact h ⟨rs, q, hrs, hreach, hflawed⟩
  · rintro h ⟨rs, q, hrs, hreach, hflawed⟩
    exact h rs q hrs hreach hflawed

def numberedError : List Text := ["\x7b\"output\":\"\",\"error\":5\x7d"]

theorem not_contained_numberedError :
    @ofLines .unbounded defaultKeep (numberedError.map .text) = .error .noFields ∧
      ¬ Contained 10 numberedError := by
  let _ : Limits := .unbounded
  have herror : ofLines defaultKeep (numberedError.map .text) = .error .noFields := by
    have hrecords : Record.ofLines (numberedError.map .text) =
        .ok [.summary ⟨none, some (.int 5), [("output", .text ""), ("error", .int 5)]⟩] := rfl
    unfold ofLines
    rw [hrecords, ok_bind]
    refine ofRecords_of_read_error (List.cons_ne_nil _ _) ?_
    exact read_summary (Nat.le_refl 1) _
  refine ⟨herror, fun h => ?_⟩
  have hescapes := ((contained_iff_not_escapes numberedError).1 h).1
  refine hescapes ⟨.noFields, herror, rfl, nofun⟩

end CallTrace.Reconstruction
