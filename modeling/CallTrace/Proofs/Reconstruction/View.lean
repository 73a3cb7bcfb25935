import CallTrace.Proofs.Reconstruction.Account
import CallTrace.Proofs.Reconstruction.Ending
import CallTrace.Proofs.Reconstruction.Recast
import Mathlib.Data.List.DropRight

namespace CallTrace
open Attempt

def Step.cut (size : Nat) (s : Step) : Step := { s with stack := s.stack.rtake size }

theorem rtake_rtake {α : Type} {m n : Nat} (h : m ≤ n) (items : List α) :
    (items.rtake n).rtake m = items.rtake m := by
  unfold List.rtake
  rw [List.length_drop, List.drop_drop]
  congr 1
  omega

/-- The items are cut off where the whole stack has been read, so what else is wrong with a record shows as before. -/
theorem StepRecord.toStep_top {m n : Nat} (h : m ≤ n) (r : StepRecord) :
    r.toStep (.top m) = (r.toStep (.top n)).map (Step.cut m) := by
  unfold toStep
  cases r.stack.mapM Hex.quantity with
  | error f => rfl
  | ok stack =>
    cases Hex.quantity r.gas with
    | error f => rfl
    | ok gas =>
      have hcut : stack.drop (stack.length - m) = (stack.drop (stack.length - n)).rtake m :=
        (rtake_rtake h stack).symm
      simp only [ok_bind, keepTop_natural, hcut]
      cases r.memoryOctets with
      | error f => rfl
      | ok memory => cases Step.storageOf (r.storage.getD .null) <;> rfl

namespace Reconstruction

theorem recasts_top {m n : Nat} (h : m ≤ n) : Recasts (.top n) (.top m) 0 id (Step.cut m) where
  depth _ := rfl
  error _ := rfl
  output _ := rfl
  ending _ := rfl
  step := StepRecord.toStep_top h

section
variable [Limits]

theorem read_top {m n : Nat} (h : m ≤ n) (depth : Nat) (last : Option StepRecord) (rs : List Record) :
    read (.top m) depth last rs = (read (.top n) depth last rs).map (Prod.map (Trace.mapSteps (Step.cut m)) id) := by
  have hread := (recasts_top h).read depth last rs (.inl rfl)
  rw [Limits.deeper_zero, Nat.add_zero, Option.map_id, Record.mapStep_id, List.map_id_fun] at hread
  exact hread

theorem ofRecords_top {m n : Nat} (h : m ≤ n) (rs : List Record) :
    ofRecords (.top m) rs = (ofRecords (.top n) rs).map (Trace.mapSteps (Step.cut m)) := by
  rw [ofRecords_eq, ofRecords_eq]
  simp only
  split
  · rfl
  · rw [read_top h]
    cases read (.top n) 1 none (rs.filter (!·.isMarker)) with
    | error f => rfl
    | ok p =>
      obtain ⟨t, left⟩ := p
      cases left <;> rfl

/-- A log comes to the same with fewer items of each stack shown: to the same fault, or to the same trace whose
steps show the top of what they showed. The size that a step tells is that of the whole stack. -/
theorem ofLines_top {m n : Nat} (h : m ≤ n) (lines : List Line) :
    ofLines (.top m) lines = (ofLines (.top n) lines).map (Trace.mapSteps (Step.cut m)) ∧
      ∀ t, ofLines (.top n) lines = .ok t → ∃ rs, (Record.ofLines lines).map (·.filter (!·.isMarker)) = .ok rs ∧
        t.allSteps.map Step.stackSize = (rs.filterMap told?).map fun r => (r.stack.length : Int) := by
  constructor
  · unfold ofLines
    cases Record.ofLines lines with
    | error f => rfl
    | ok rs => exact ofRecords_top h rs
  · intro t ht
    obtain ⟨rs, hrs, hread⟩ := ofLines_eq_ok.1 ht
    exact ⟨_, by rw [hrs, map_ok], map_of_mapM (hread.stepsOf_eq Nat.one_pos) fun r s hs =>
      StepRecord.stackSize_of_toStep hs⟩

end

/-- The call that returns does so with its operands out of view. -/
theorem returningCall_top :
    0 ≤ 2 ∧
      @ofLines .unbounded (.top (0 : Nat)) returningCall = .ok (
        .step ⟨0, 0xF1, 1, 9, 0, [], [], .empty⟩ <|
          .call (.step ⟨7, 0xF3, 2, 8, 3, [], [10, 11], .empty⟩ (.ended .return [11, 0])) <|
            .step ⟨1, 0, 1, 2, 0, [], [], .empty⟩ (.ended .return [])) ∧
      ∃ rs, (Record.ofLines returningCall).map (·.filter (!·.isMarker)) = .ok rs ∧
        returningCallTrace.allSteps.map Step.stackSize =
          (rs.filterMap told?).map fun r => (r.stack.length : Int) := by
  obtain ⟨hcut, hsizes⟩ := @ofLines_top .unbounded 0 2 (by decide) returningCall
  refine ⟨by decide, ?_, hsizes returningCallTrace ofLines_returningCall⟩
  rw [hcut, show (((2 : Nat) : Int)) = 2 from rfl, ofLines_returningCall]
  rfl

end Reconstruction

end CallTrace
