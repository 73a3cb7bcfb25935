import CallTrace.Proofs.Limits
import CallTrace.Proofs.Reconstruction.Reading
import CallTrace.Proofs.Trace.Steps

namespace CallTrace

abbrev Limits.deeper (k : Nat) (limits : Limits) : Limits := ⟨limits.frames.map (· + k), limits.octets⟩

theorem Limits.deeper_zero (limits : Limits) : limits.deeper 0 = limits := by
  obtain ⟨frames, octets⟩ := limits
  cases frames <;> rfl

theorem Limits.admitsDepth_deeper (limits : Limits) (k depth : Nat) :
    @admitsDepth (limits.deeper k) 1 (depth + k) = @admitsDepth limits 1 depth := by
  obtain ⟨frames, octets⟩ := limits
  cases frames with
  | none => rfl
  | some b =>
    show decide (1 * (depth + k) ≤ b + k) = decide (1 * depth ≤ b)
    exact decide_eq_decide.2 (by omega)

theorem Limits.admitsDepth_deeper_of_admitsDepth {limits : Limits} {depth : Nat}
    (h : @admitsDepth limits 1 depth = true) (k : Nat) : @admitsDepth (limits.deeper k) 1 depth = true := by
  rw [← admitsDepth_deeper limits k] at h
  exact @admitsDepth_of_le (limits.deeper k) _ _ _ (Nat.le_add_right depth k) h

def Record.mapStep (g : StepRecord → StepRecord) : Record → Record
  | .step r => .step (g r)
  | .summary s => .summary s

theorem Record.mapStep_id : mapStep id = id := by
  funext r
  cases r <;> rfl

namespace Reconstruction
open Attempt

/-- Records recast by `g` are `k` calls further down, their steps are recast by `f`, and all else that a frame
looks at is as before. -/
structure Recasts (keep keep' : Keep) (k : Nat) (g : StepRecord → StepRecord) (f : Step → Step) : Prop where
  depth : ∀ r, (g r).depth = r.depth + k
  error : ∀ r, (g r).error = r.error
  output : ∀ r, (g r).outputOctets = r.outputOctets
  ending : ∀ [Limits] r, (g r).ending = r.ending
  step : ∀ r, (g r).toStep keep' = (r.toStep keep).map f

variable {keep keep' : Keep} {k : Nat} {g : StepRecord → StepRecord} {f : Step → Step}

theorem Stops.recast {depth : Nat} {rs : List Record} (hg : Recasts keep keep' k g f) (h : Stops depth rs) :
    Stops (depth + k) (rs.map (Record.mapStep g)) := by
  cases h with
  | nil => exact .nil
  | summary h => exact .summary (Nat.lt_add_right k h)
  | @above r rs h => exact .above (by rw [hg.depth]; exact Nat.add_lt_add_right h k)

theorem skipSummary_recast {depth : Nat} {rs : List Record} (h : k = 0 ∨ ∀ s, .summary s ∉ rs) :
    skipSummary (depth + k) (rs.map (Record.mapStep g)) = (skipSummary depth rs).map (Record.mapStep g) := by
  cases rs with
  | nil => rfl
  | cons r rs =>
    cases r with
    | step r => rfl
    | summary s =>
      obtain rfl := h.resolve_right fun hs => hs s List.mem_cons_self
      rw [Nat.add_zero, skipSummary, List.map_cons, Record.mapStep, skipSummary]
      split <;> rfl

namespace Recasts

theorem halted (hg : Recasts keep keep' k g f) (r : StepRecord) (e : Json) :
    halted keep' (g r) e = (Reconstruction.halted keep r e).map (Trace.mapSteps f) := by
  rw [halted_eq, halted_eq, hg.output]
  cases Outcome.ofExecutionError e with
  | error fault => rfl
  | ok o =>
    rw [ok_bind, ok_bind, raised?, raised?, hg.step]
    split
    · cases r.toStep keep with
      | error fault => rfl
      | ok s => cases r.outputOctets <;> rfl
    · cases r.outputOctets <;> rfl

theorem closing [Limits] (hg : Recasts keep keep' k g f) (last : Option StepRecord) :
    closing (last.map g) = Reconstruction.closing last := by
  cases last with
  | none => rfl
  | some r => exact hg.ending r

/-- A frame of recast records has the recast trace and leaves the recast records, or fails as the frame of the
first records does. A final record may be among them only if the depth stays as it is. -/
theorem read [limits : Limits] (hg : Recasts keep keep' k g f) (depth : Nat) (last : Option StepRecord)
    (rs : List Record) (hrs : k = 0 ∨ ∀ s, .summary s ∉ rs) :
    @Reconstruction.read (limits.deeper k) keep' (depth + k) (last.map g) (rs.map (Record.mapStep g)) =
      (Reconstruction.read keep depth last rs).map (Prod.map (Trace.mapSteps f) (List.map (Record.mapStep g))) := by
  have hclosing : ∀ last : Option StepRecord,
      @Reconstruction.closing (limits.deeper k) (last.map g) = Reconstruction.closing last := hg.closing
  -- Both readings choose alike at each record, so the induction is on the reading at the depth before.
  induction depth, last, rs using frame_induction keep with
  | stops depth last rs hs =>
    rw [read_of_stops hs, @read_of_stops (limits.deeper k) _ _ _ _ (hs.recast hg), hclosing]
    cases Reconstruction.closing last <;> rfl
  | summary depth last s left hd =>
    -- Where a summary is ahead, the calls stay at their depths.
    obtain rfl := hrs.resolve_right fun h => h s List.mem_cons_self
    rw [read_summary hd, Nat.add_zero, List.map_cons, Record.mapStep, @read_summary (limits.deeper 0) _ _ _ _ hd]
    cases s.ending <;> rfl
  | deeper depth last r left hd ihInner ihRest =>
    have hd' : depth + k < (g r).depth := by
      rw [hg.depth]
      exact Nat.add_lt_add_right hd k
    rw [read_deeper hd, List.map_cons, Record.mapStep, @read_deeper (limits.deeper k) _ _ _ _ _ hd',
      Nat.add_right_comm, Limits.admitsDepth_deeper]
    split
    · have hinner := ihInner hrs
      rw [Option.map_none, List.map_cons, Record.mapStep] at hinner
      rw [hinner]
      cases hread : Reconstruction.read keep (depth + 1) none (.step r :: left) with
      | error fault => rfl
      | ok inner =>
        have hleft : k = 0 ∨ ∀ s, .summary s ∉ inner.2 :=
          hrs.imp_right fun h s hs => h s ((reads_of_read hread).suffix.subset hs)
        simp only [map_ok, ok_bind, Prod.map_fst, Prod.map_snd]
        rw [ihRest inner.1 inner.2 hread hleft]
        cases Reconstruction.read keep depth last inner.2 <;> rfl
    · rfl
  | error depth last r left e hd he =>
    have hleft : k = 0 ∨ ∀ s, .summary s ∉ left := hrs.imp_right fun h s hs => h s (List.mem_cons_of_mem _ hs)
    rw [read_error hd he, List.map_cons, Record.mapStep,
      @read_error (limits.deeper k) _ _ _ _ _ _ ((hg.depth r).trans (congrArg (· + k) hd)) ((hg.error r).trans he),
      hg.halted, skipSummary_recast hleft]
    cases Reconstruction.halted keep r e <;> rfl
  | step depth last r left hd he ih =>
    have hleft : k = 0 ∨ ∀ s, .summary s ∉ left := hrs.imp_right fun h s hs => h s (List.mem_cons_of_mem _ hs)
    rw [read_step hd he, List.map_cons, Record.mapStep,
      @read_step (limits.deeper k) _ _ _ _ _ ((hg.depth r).trans (congrArg (· + k) hd)) ((hg.error r).trans he),
      hg.step]
    cases r.toStep keep with
    | error fault => rfl
    | ok s =>
      have hrest := ih hleft
      rw [Option.map_some] at hrest
      rw [map_ok, ok_bind, hrest, ok_bind]
      cases Reconstruction.read keep depth (some r) left <;> rfl

end Recasts

end Reconstruction

end CallTrace
