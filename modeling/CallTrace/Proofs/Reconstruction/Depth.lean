import CallTrace.Proofs.Record.Reader
import CallTrace.Proofs.Reconstruction.Recast
import CallTrace.Proofs.Reconstruction.Report

namespace CallTrace
open Attempt

def Step.deepen (k : Nat) (s : Step) : Step := { s with depth := s.depth + k }

namespace StepRecord

def deepen (k : Nat) (r : StepRecord) : StepRecord := r.atDepth (r.depth + k)

def lift (k : Nat) (r : StepRecord) : StepRecord := r.atDepth (r.depth - k)

theorem deepen_lift {k : Nat} {r : StepRecord} (h : ReadFrom r.source r) (hk : k ≤ r.depth) :
    (r.lift k).deepen k = r := by
  show (r.atDepth (r.depth - k)).atDepth (r.depth - k + k) = r
  rw [atDepth_atDepth, Nat.sub_add_cancel hk, h.atDepth_self]

theorem ending_atDepth [Limits] (depth : Nat) (r : StepRecord) : (r.atDepth depth).ending = r.ending := by
  have hname : Fields.value? (r.atDepth depth).source "opName" = r.source.value? "opName" :=
    Fields.value?_put_ne (by decide) r.source _
  have hreturned : (r.atDepth depth).returned = r.returned := by
    unfold returned
    rw [hname]
    rfl
  unfold ending
  rw [hreturned]
  rfl

theorem toStep_deepen (keep : Keep) (k : Nat) (r : StepRecord) :
    (r.deepen k).toStep keep = (r.toStep keep).map (Step.deepen k) := by
  unfold toStep
  show (do
    let stack ← r.stack.mapM Hex.quantity
    let gas ← Hex.quantity r.gas
    let kept ← keepTop keep stack
    let memory ← r.memoryOctets
    let storage ← Step.storageOf (r.storage.getD .null)
    return (⟨r.pc, r.op, (r.depth + k : Nat), gas, stack.length, kept, memory, storage⟩ : Step)) = _
  cases r.stack.mapM Hex.quantity with
  | error f => rfl
  | ok stack =>
    cases Hex.quantity r.gas with
    | error f => rfl
    | ok gas =>
      simp only [ok_bind]
      cases keepTop keep stack with
      | error f => rfl
      | ok kept =>
        cases r.memoryOctets with
        | error f => rfl
        | ok memory => cases Step.storageOf (r.storage.getD .null) <;> rfl

end StepRecord

namespace Reconstruction

theorem recasts_deepen (keep : Keep) (k : Nat) :
    Recasts keep keep k (StepRecord.deepen k) (Step.deepen k) where
  depth _ := rfl
  error _ := rfl
  output _ := rfl
  ending r := r.ending_atDepth _
  step := StepRecord.toStep_deepen keep k

theorem exists_steps {rs : List Record} (h : ∀ s, .summary s ∉ rs) :
    ∃ steps : List StepRecord, rs = steps.map .step := by
  induction rs with
  | nil => exact ⟨[], rfl⟩
  | cons r rs ih =>
    obtain ⟨steps, rfl⟩ := ih fun s hs => h s (List.mem_cons_of_mem r hs)
    cases r with
    | step r => exact ⟨r :: steps, rfl⟩
    | summary s => exact absurd List.mem_cons_self (h s)

section
variable [limits : Limits] {keep : Keep} {depth : Nat} {last : Option StepRecord} {rs left : List Record}
  {t : Trace}

/-- A call within another one takes in steps alone. -/
theorem Reads.exists_taken (h : Reads keep depth last rs t left) (hdeep : 1 < depth) :
    ∃ taken : List StepRecord, rs = taken.map .step ++ left ∧ ∀ r ∈ taken, depth ≤ r.depth := by
  obtain ⟨body, tail, hrs, hbody, htail, -⟩ := h.split (Nat.lt_of_succ_lt hdeep)
  obtain ⟨body', hrs', hle⟩ := h.depth_le
  cases htail with
  | summary s hd => exact absurd hd (Nat.not_le.2 hdeep)
  | none =>
    obtain rfl : body = body' := List.append_cancel_right (hrs.symm.trans hrs')
    obtain ⟨taken, rfl⟩ := exists_steps hbody
    exact ⟨taken, hrs', fun r hr => hle r (List.mem_map_of_mem hr)⟩

/-- What stands behind the records of a call has no part in its trace. -/
theorem Reads.front (h : Reads keep depth last rs t left) (hdeep : 1 < depth) {kept more : List Record}
    (hleft : left = kept ++ more) : ∃ front, rs = front ++ more ∧ Reads keep depth last front t kept := by
  induction h generalizing kept more with
  | closing hs he =>
    subst hleft
    refine ⟨kept, rfl, .closing ?_ he⟩
    cases kept with
    | nil => exact .nil
    | cons r kept =>
      cases hs with
      | summary hd => exact .summary hd
      | above hd => exact .above hd
  | summary hd he => exact absurd hd (Nat.not_le.2 hdeep)
  | @call depth last r rs inner left₁ rest left hd hroom hinner hrest ihInner ihRest =>
    obtain ⟨front₁, rfl, hrest'⟩ := ihRest hdeep hleft
    obtain ⟨front, hrs, hinner'⟩ := ihInner (Nat.lt_succ_of_lt hdeep) rfl
    -- The call takes in a record at least, so what is read of it starts with the same record.
    cases front with
    | nil => exact absurd ((leaves_of_read (read_of_reads hinner')).2 rfl) (Nat.not_lt_zero _)
    | cons r' front =>
      obtain ⟨rfl, rfl⟩ := List.cons.inj hrs
      exact ⟨.step r :: front, rfl, .call hd hroom hinner' hrest'⟩
  | @error depth last r left e t hd he ht =>
    rw [skipSummary_of_lt hdeep] at hleft
    subst hleft
    refine ⟨.step r :: kept, rfl, ?_⟩
    have herror : Reads keep depth last (.step r :: kept) t (skipSummary depth kept) := .error hd he ht
    rwa [skipSummary_of_lt hdeep] at herror
  | @step depth last r rs s rest left hd he hs hrest ih =>
    obtain ⟨front, rfl, hrest'⟩ := ih hdeep hleft
    exact ⟨.step r :: front, rfl, .step hd he hs hrest'⟩

/-- More room is as good. -/
theorem Reads.deeper (h : Reads keep depth last rs t left) (k : Nat) :
    @Reads (limits.deeper k) keep depth last rs t left := by
  induction h with
  | closing hs he => exact @Reads.closing (limits.deeper k) _ _ _ _ _ _ hs he
  | summary hd he => exact @Reads.summary (limits.deeper k) _ _ _ _ _ _ _ hd he
  | call hd hroom hinner hrest ihInner ihRest =>
    exact @Reads.call (limits.deeper k) _ _ _ _ _ _ _ _ _ hd (Limits.admitsDepth_deeper_of_admitsDepth hroom k)
      ihInner ihRest
  | error hd he ht => exact @Reads.error (limits.deeper k) _ _ _ _ _ _ _ hd he ht
  | step hd he hs hrest ih => exact @Reads.step (limits.deeper k) _ _ _ _ _ _ _ _ hd he hs ih

/-- Each call within a frame is a frame of its own, one call further down, of records among those of the frame. -/
theorem Reads.exists_frame (h : Reads keep depth last rs t left) {u : Trace} (hu : u ∈ t.nested) :
    ∃ d before here after, depth ≤ d ∧ rs = before ++ here ∧ Reads keep (d + 1) none here u after := by
  induction h with
  | closing hs he => cases hu
  | summary hd he => cases hu
  | @call depth last r rs inner left₁ rest left hd hroom hinner hrest ihInner ihRest =>
    rcases List.mem_cons.1 hu with rfl | hu
    -- It is the inner call itself, one in it, or one behind it.
    · exact ⟨depth, [], _, left₁, Nat.le_refl depth, rfl, hinner⟩
    · rcases List.mem_append.1 hu with hu | hu
      · obtain ⟨d, before, here, after, hdepth, hrs, hread⟩ := ihInner hu
        exact ⟨d, before, here, after, Nat.le_of_succ_le hdepth, hrs, hread⟩
      · obtain ⟨d, before, here, after, hdepth, rfl, hread⟩ := ihRest hu
        obtain ⟨taken, hrs⟩ := hinner.suffix
        exact ⟨d, taken ++ before, here, after, hdepth, by rw [← hrs, List.append_assoc], hread⟩
  | error hd he ht =>
    obtain ⟨o, bs, -, -, ⟨-, s, -, rfl⟩ | ⟨-, rfl⟩⟩ := halted_eq_ok ht <;> cases hu
  | @step depth last r rs s rest left hd he hs hrest ih =>
    obtain ⟨d, before, here, after, hdepth, rfl, hread⟩ := ih hu
    exact ⟨d, .step r :: before, here, after, hdepth, rfl, hread⟩

/-- The fields of step records are a log of them. -/
theorem ofLines_sources (steps : List StepRecord) (hread : ∀ r ∈ steps, StepRecord.ReadFrom r.source r)
    (hmarks : ∀ r ∈ steps, r.isMarker = false) (h : Reads keep 1 none (steps.map .step) t []) :
    ofLines keep (steps.map fun r => .value (.object r.source)) = .ok t := by
  have hunmarked : ∀ r ∈ steps.map Record.step, (!r.isMarker) = true := by
    rw [List.forall_mem_map]
    intro r hr
    rw [Record.isMarker, hmarks r hr, Bool.not_false]
  refine ofLines_eq_ok.2 ⟨steps.map .step, Record.ofLinesFrom_sources hread 1, ?_⟩
  rwa [List.filter_eq_self.2 hunmarked]

/-- The records of a call, lifted to the surface, are a log of that call. -/
theorem Reads.ofLines_lift {d : Nat} (h : Reads keep (d + 1) none rs t left) (hd : 0 < d)
    (hread : ∀ r, .step r ∈ rs → StepRecord.ReadFrom r.source r) (hmarks : ∀ r, .step r ∈ rs → r.isMarker = false) :
    ∃ taken : List StepRecord, rs = taken.map .step ++ left ∧
      ∃ u, ofLines keep (taken.map fun r => .value (.object (r.lift d).source)) = .ok u ∧
        u.mapSteps (Step.deepen d) = t := by
  obtain ⟨taken, rfl, hle⟩ := h.exists_taken (Nat.succ_lt_succ hd)
  obtain ⟨front, hfront, hown⟩ := h.front (Nat.succ_lt_succ hd) (List.nil_append left).symm
  obtain rfl : taken.map .step = front := List.append_cancel_right hfront
  have hmem : ∀ r ∈ taken, .step r ∈ taken.map Record.step ++ left := fun r hr =>
    List.mem_append_left left (List.mem_map_of_mem hr)
  have hdeepen : ((taken.map (StepRecord.lift d)).map .step).map (Record.mapStep (StepRecord.deepen d)) =
      taken.map .step := by
    rw [List.map_map, List.map_map]
    refine List.map_congr_left fun r hr => congrArg Record.step ?_
    exact StepRecord.deepen_lift (hread r (hmem r hr)) (Nat.le_of_succ_le (hle r hr))
  -- Lifted, the records come to what they come to below, where there is room for the calls around them.
  have heq := (recasts_deepen keep d).read 1 none ((taken.map (StepRecord.lift d)).map .step) (.inr (by simp))
  rw [hdeepen, Nat.add_comm, Option.map_none, @read_of_reads (limits.deeper d) _ _ _ _ _ _ (hown.deeper d)] at heq
  obtain ⟨⟨u, rest⟩, hu, hmap⟩ := map_eq_ok.1 heq.symm
  obtain ⟨ht, hrest⟩ := Prod.mk.inj hmap
  obtain rfl := List.map_eq_nil_iff.1 hrest
  have hlog := ofLines_sources (taken.map (StepRecord.lift d))
    (List.forall_mem_map.2 fun r hr => (hread r (hmem r hr)).atDepth (Nat.sub_pos_of_lt (hle r hr)))
    (List.forall_mem_map.2 fun r hr => hmarks r (hmem r hr)) (reads_of_read hu)
  rw [List.map_map] at hlog
  exact ⟨taken, rfl, u, hlog, ht⟩

/-- A frame comes to the same at any depth, `k` calls further down with all of its steps there too. So in a run,
whether it comes to a trace or not, each call that can be read has the trace that its own records come to as a log,
once they are lifted to the surface; and the calls of the trace that a run comes to are such calls. -/
theorem read_deepen (keep : Keep) :
    (∀ (k : Nat) (rs : List StepRecord),
      @read (limits.deeper k) keep (1 + k) none (rs.map fun r => .step (r.deepen k)) =
        (read keep 1 none (rs.map .step)).map
          (Prod.map (Trace.mapSteps (Step.deepen k)) (List.map (Record.mapStep (StepRecord.deepen k))))) ∧
    ∀ lines rs, Record.ofLines lines = .ok rs →
      (∀ d before here u after, 0 < d → rs.filter (!·.isMarker) = before ++ here →
        read keep (d + 1) none here = .ok (u, after) →
        ∃ taken : List StepRecord, here = taken.map .step ++ after ∧
          ∃ v, ofLines keep (taken.map fun r => .value (.object (r.lift d).source)) = .ok v ∧
            v.mapSteps (Step.deepen d) = u) ∧
      ∀ t, ofLines keep lines = .ok t → ∀ u ∈ t.nested, ∃ d before here after, 0 < d ∧
        rs.filter (!·.isMarker) = before ++ here ∧ read keep (d + 1) none here = .ok (u, after) := by
  refine ⟨fun k rs => ?_, fun lines rs hrs => ⟨fun d before here u after hd hhere hread => ?_, fun t ht u hu => ?_⟩⟩
  · have heq := (recasts_deepen keep k).read 1 none (rs.map .step) (.inr (by simp))
    rwa [List.map_map, Option.map_none] at heq
  · have hmem : ∀ r, .step r ∈ here → .step r ∈ rs.filter (!·.isMarker) := fun r hr =>
      hhere ▸ List.mem_append_right before hr
    refine (reads_of_read hread).ofLines_lift hd (fun r hr => ?_) fun r hr => ?_
    · exact Record.readFrom_of_ofLinesFrom hrs (List.mem_filter.1 (hmem r hr)).1
    · simpa [Record.isMarker] using (List.mem_filter.1 (hmem r hr)).2
  · obtain ⟨rs', hrs', hread⟩ := ofLines_eq_ok.1 ht
    obtain rfl := Except.ok.inj (hrs.symm.trans hrs')
    obtain ⟨d, before, here, after, hd, hhere, hframe⟩ := hread.exists_frame hu
    exact ⟨d, before, here, after, hd, hhere, read_of_reads hframe⟩

end

/-- The records of a call that fails in a call of its own before its first step. No record of its own tells where
it begins. -/
def buriedCall : List StepRecord := [
  ⟨0, 0xF1, 1, .int 9, [], none, none, none, none,
    [("pc", .int 0), ("op", .int 0xF1), ("depth", .int 1), ("gas", .int 9)]⟩,
  ⟨7, 0x56, 3, .int 8, [], none, none, some (.text "out of gas"), none,
    [("pc", .int 7), ("op", .int 0x56), ("depth", .int 3), ("gas", .int 8), ("error", .text "out of gas")]⟩,
  ⟨4, 0, 2, .text "0x7", [], none, none, none, none,
    [("pc", .int 4), ("op", .int 0), ("depth", .int 2), ("gas", .text "0x7")]⟩,
  ⟨1, 0, 1, .text "0x2", [], none, none, none, none,
    [("pc", .int 1), ("op", .int 0), ("depth", .int 1), ("gas", .text "0x2")]⟩]

def buriedCallTrace : Trace :=
  .call (.ended .outOfGas []) (.step ⟨4, 0, 2, 7, 0, [], [], .empty⟩ (.ended .return []))

theorem read_buriedCall :
    @read .unbounded defaultKeep 2 none ((buriedCall.drop 1).map .step) =
      .ok (buriedCallTrace, (buriedCall.drop 3).map .step) := by
  let _ : Limits := .unbounded
  exact read_of_reads <| .call (by decide) rfl (.error rfl rfl rfl) <| .step rfl rfl rfl <|
    .closing (.above (by decide)) rfl

theorem buriedCall_read_deepen :
    (Record.ofLines (buriedCall.map fun r => .value (.object r.source)) = .ok (buriedCall.map .step) ∧ 0 < 1 ∧
      (buriedCall.map Record.step).filter (!·.isMarker) =
        (buriedCall.take 1).map .step ++ (buriedCall.drop 1).map .step ∧
      @read .unbounded defaultKeep 2 none ((buriedCall.drop 1).map .step) =
        .ok (buriedCallTrace, (buriedCall.drop 3).map .step)) ∧
    ∃ taken : List StepRecord, (buriedCall.drop 1).map Record.step = taken.map .step ++ (buriedCall.drop 3).map .step ∧
      ∃ u, @ofLines .unbounded defaultKeep (taken.map fun r => .value (.object (r.lift 1).source)) = .ok u ∧
        u.mapSteps (Step.deepen 1) = buriedCallTrace := by
  have hlog : Record.ofLines (buriedCall.map fun r => .value (.object r.source)) = .ok (buriedCall.map .step) := rfl
  have hhere : (buriedCall.map Record.step).filter (!·.isMarker) =
      (buriedCall.take 1).map .step ++ (buriedCall.drop 1).map .step := rfl
  refine ⟨⟨hlog, by decide, hhere, read_buriedCall⟩, ?_⟩
  exact ((@read_deepen .unbounded defaultKeep).2 _ _ hlog).1 1 _ _ _ _ (by decide) hhere read_buriedCall

end Reconstruction

end CallTrace
