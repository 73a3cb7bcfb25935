import CallTrace.Record.Reader
import CallTrace.Trace.Basic

namespace CallTrace.Reconstruction

/-- The records that a frame leaves are fewer than it was given, unless a step had been read before. -/
def Leaves (last : Option StepRecord) (rs left : List Record) : Prop :=
  left.length ≤ rs.length ∧ (last = none → left.length < rs.length)

/-- A frame and the records after it. -/
abbrev Frame (last : Option StepRecord) (rs : List Record) : Type :=
  { f : Trace × List Record // Leaves last rs f.2 }

/-- How far the next record lies below the call at hand. -/
def gap (depth : Nat) : List Record → Nat
  | .step r :: _ => r.depth - depth
  | _ => 0

/-- Ends a frame by its last step, before the next record. -/
def infer [Limits] (last : Option StepRecord) (rs : List Record) : Except Fault (Frame last rs) :=
  match last with
  | none => .error (.unexpectedEnd none)
  | some r => do
    let (o, bs) ← r.ending
    return ⟨(.ended o bs, rs), Nat.le_refl _, nofun⟩

/-- The end of a frame on a step that failed. The step belongs to the frame if the instruction itself
raised the error. -/
def halted (keep : Keep) (r : StepRecord) (error : Json) : Except Fault Trace := do
  let o ← Outcome.ofExecutionError error
  let step ← if o.isPostError then some <$> r.toStep keep else pure none
  let bs ← r.outputOctets
  return match step with
    | some s => .step s (.ended o bs)
    | none => .ended o bs

/-- Leaves out the summary, which tells nothing new after an error. -/
def skipSummary (depth : Nat) : List Record → List Record
  | .summary s :: rs => if depth = 1 then rs else .summary s :: rs
  | rs => rs

theorem length_skipSummary (depth : Nat) (rs : List Record) :
    (skipSummary depth rs).length ≤ rs.length := by
  unfold skipSummary
  split
  · split <;> simp
  · exact Nat.le_refl _

/-- The rest of the frame of a call at a depth, the step before being `last`. -/
def frame [Limits] (keep : Keep) (depth : Nat) (last : Option StepRecord) (rs : List Record) :
    Except Fault (Frame last rs) :=
  match rs with
  | [] => infer last []
  | .summary s :: left =>
    if 1 < depth then infer last (.summary s :: left)
    else do
      let (o, bs) ← s.ending
      return ⟨(.ended o bs, left), by simp [Leaves]⟩
  | .step r :: left =>
    if depth < r.depth then
      if !Limits.admitsDepth 1 (depth + 1) then .error .tooDeep
      else match frame keep (depth + 1) none (.step r :: left) with
      | .error f => .error f
      | .ok ⟨(inner, left₁), h₁⟩ =>
        match frame keep depth last left₁ with
        | .error f => .error f
        | .ok ⟨(rest, left₂), h₂⟩ =>
          .ok ⟨(.call inner rest, left₂), Nat.le_trans h₂.1 h₁.1,
            fun _ => Nat.lt_of_le_of_lt h₂.1 (h₁.2 rfl)⟩
    else if r.depth < depth then infer last (.step r :: left)
    else match r.error with
      | some error =>
        match halted keep r error with
        | .error f => .error f
        | .ok t =>
          have h := length_skipSummary depth left
          .ok ⟨(t, skipSummary depth left), Nat.le_succ_of_le h, fun _ => Nat.lt_succ_of_le h⟩
      | none =>
        match r.toStep keep with
        | .error f => .error f
        | .ok s =>
          match frame keep depth (some r) left with
          | .error f => .error f
          | .ok ⟨(rest, left₁), h⟩ =>
            .ok ⟨(.step s rest, left₁), Nat.le_succ_of_le h.1, fun _ => Nat.lt_succ_of_le h.1⟩
termination_by (rs.length, gap depth rs)
decreasing_by
  · right; simp only [gap]; omega
  · left; exact h₁.2 rfl
  · left; simp

/-- The trace of a run, from its records without the markers among them. -/
def ofRecords [Limits] (keep : Keep) (rs : List Record) : Except Fault Trace := do
  let rs := rs.filter (!·.isMarker)
  if rs.isEmpty then throw .noRecords
  match (← frame keep 1 none rs).1 with
  | (t, []) => return t
  | (_, next :: left) => throw (.leftOver (left.length + 1) next.source)

/-- The trace of a run, from the lines of its log. -/
def ofLines [Limits] (keep : Keep) (lines : List Line) : Except Fault Trace := Record.ofLines lines >>= ofRecords keep

/-- The stack items of each step that are kept where nothing else is asked for. -/
def defaultKeep : Keep := .top 10

end CallTrace.Reconstruction
