import CallTrace.Proofs.Record.Conversion
import CallTrace.Proofs.Outcome.Reported
import CallTrace.Trace.Basic

namespace CallTrace.Reconstruction
open Attempt

structure Plain (keep : Keep) (depth : Nat) where
  record : StepRecord
  step : Step
  depth_eq : record.depth = depth
  error_eq : record.error = none
  toStep_eq : record.toStep keep = .ok step

/-- A step of a call at a depth whose error ends the call. If the instruction raised the error, it is a step
of the call. -/
structure Halt (keep : Keep) (depth : Nat) where
  record : StepRecord
  text : Text
  outcome : Outcome
  output : Octets
  step? : Option Step
  depth_eq : record.depth = depth
  error_eq : record.error = some (.text text)
  text_ne : text ≠ Outcome.revertText
  outcome_eq : Outcome.ofExecutionText text = .ok outcome
  output_eq : record.outputOctets = .ok output
  isSome_step? : step?.isSome = outcome.isPostError
  toStep_eq : ∀ s, step? = some s → record.toStep keep = .ok s

structure Final where
  record : Summary
  outcome : Outcome
  output : Octets
  output_eq : Hex.octets (record.output.getD (.text "0x")) = .ok output
  outcome_eq : record.error = none ∧ outcome = .return ∨
    ∃ e, record.error = some e ∧ Outcome.ofExecutionError e = .ok outcome

/-- What happened in a call at a depth: its steps and the calls it made, in order, and how it ended, by an
error or without one. -/
inductive Tree (keep : Keep) : Nat → Type where
  | ended {depth : Nat} (outcome : Outcome) (data : Octets) : Tree keep depth
  | halts {depth : Nat} (h : Halt keep depth) : Tree keep depth
  | step {depth : Nat} (p : Plain keep depth) (rest : Tree keep depth) : Tree keep depth
  | call {depth : Nat} (inner : Tree keep (depth + 1)) (rest : Tree keep depth) : Tree keep depth

variable {keep : Keep} {depth : Nat}

def Plain.end? (p : Plain keep depth) : Option (Outcome × Octets) := p.record.end? p.step.memory

def Plain.Overruns (p : Plain keep depth) : Prop := p.record.Overruns p.step.memory

def Halt.trace (h : Halt keep depth) : Trace :=
  match h.step? with
  | some s => .step s (.ended h.outcome h.output)
  | none => .ended h.outcome h.output

def Final.data (f : Final) : Octets := if f.outcome.hasData then f.output else []

namespace Tree

def flatten {depth : Nat} : Tree keep depth → List Record
  | .ended .. => []
  | .halts h => [.step h.record]
  | .step p rest => .step p.record :: rest.flatten
  | .call inner rest => inner.flatten ++ rest.flatten

def trace {depth : Nat} : Tree keep depth → Trace
  | .ended o bs => .ended o bs
  | .halts h => h.trace
  | .step p rest => .step p.step rest.trace
  | .call inner rest => .call inner.trace rest.trace

/-- Whether no record tells of the end of the call. -/
def isImplied {depth : Nat} : Tree keep depth → Bool
  | .ended .. => true
  | .halts _ => false
  | .step _ rest | .call _ rest => rest.isImplied

def startsWithCall {depth : Nat} : Tree keep depth → Bool
  | .call .. => true
  | _ => false

/-- What can be said of a call in flat records. An end without an error follows from the last step of the
call, or from the summary of the run if the call is the outermost one and there is a summary. A call that
ends without an error is not followed by another one at once: their records would look like those of a single
call. -/
inductive WellFormed : {depth : Nat} → Option Final → Option (Plain keep depth) → Tree keep depth → Prop where
  | final {depth : Nat} {last : Option (Plain keep depth)} (f : Final) :
    WellFormed (some f) last (.ended f.outcome f.data)
  | implied {depth : Nat} {p : Plain keep depth} {o : Outcome} {bs : Octets} (he : p.end? = some (o, bs)) :
    WellFormed none (some p) (.ended o bs)
  | halts {depth : Nat} {final : Option Final} {last : Option (Plain keep depth)} (h : Halt keep depth) :
    WellFormed final last (.halts h)
  | step {depth : Nat} {final : Option Final} {last : Option (Plain keep depth)} {p : Plain keep depth}
    {rest : Tree keep depth} (hrest : WellFormed final (some p) rest) :
    WellFormed final last (.step p rest)
  | call {depth : Nat} {final : Option Final} {last : Option (Plain keep depth)}
    {inner : Tree keep (depth + 1)} {rest : Tree keep depth} (hinner : WellFormed none none inner)
    (hrest : WellFormed final last rest)
    (hnext : inner.isImplied = true → rest.startsWithCall = false) :
    WellFormed final last (.call inner rest)

/-- Some call in the tree ends without an error on a step that gives back too much to count. -/
def Overruns {depth : Nat} (final : Option Final) : Option (Plain keep depth) → Tree keep depth → Prop
  | last, .ended .. => final = none ∧ ∃ p, last = some p ∧ p.Overruns
  | _, .halts _ => False
  | _, .step p rest => rest.Overruns final (some p)
  | last, .call inner rest => inner.Overruns none none ∨ rest.Overruns final last

end Tree

def flatRun (final : Option Final) (t : Tree keep 1) : List Record :=
  t.flatten ++ (final.map fun f => Record.summary f.record).toList

theorem Plain.isMarker_eq (p : Plain keep depth) : p.record.isMarker = false := by
  simp only [StepRecord.isMarker, p.error_eq]

theorem Halt.isMarker_eq (h : Halt keep depth) : h.record.isMarker = false := by
  simp only [StepRecord.isMarker, h.error_eq, decide_eq_false h.text_ne]

theorem Final.ending_eq (f : Final) : f.record.ending = .ok (f.outcome, f.data) := by
  unfold Summary.ending
  rw [f.output_eq, ok_bind]
  rcases f.outcome_eq with ⟨he, ho⟩ | ⟨e, he, ho⟩
  · rw [he, Final.data, ho]
    rfl
  · simp only [he, ho]
    rfl

theorem Tree.isMarker_of_mem_flatten (t : Tree keep depth) : ∀ r ∈ t.flatten, r.isMarker = false := by
  induction t with
  | ended o bs => simp [Tree.flatten]
  | halts h =>
    intro r hr
    rw [List.mem_singleton.1 hr]
    exact h.isMarker_eq
  | step p rest ih =>
    intro r hr
    rcases List.mem_cons.1 hr with rfl | hr
    · exact p.isMarker_eq
    · exact ih r hr
  | call inner rest ihInner ihRest =>
    intro r hr
    exact (List.mem_append.1 hr).elim (ihInner r) (ihRest r)

theorem filter_flatRun (final : Option Final) (t : Tree keep 1) :
    (flatRun final t).filter (!·.isMarker) = flatRun final t := by
  refine List.filter_eq_self.2 fun r hr => ?_
  rcases List.mem_append.1 hr with hr | hr
  · rw [t.isMarker_of_mem_flatten r hr, Bool.not_false]
  · obtain ⟨f, -, rfl⟩ := Option.map_eq_some_iff.1 (Option.mem_toList.1 hr)
    rfl

/-- A call within another one has a record, and it starts at the depth of the call or below. -/
theorem Tree.WellFormed.flatten_eq {final : Option Final} {last : Option (Plain keep depth)}
    {t : Tree keep depth} (h : t.WellFormed final last) (hfinal : final = none) (hlast : last = none) :
    ∃ r rs, t.flatten = .step r :: rs ∧ depth ≤ r.depth := by
  induction h with
  -- An end without an error takes a step before it, or a summary behind it.
  | final f => cases hfinal
  | implied he => cases hlast
  | halts h => exact ⟨_, _, rfl, Nat.le_of_eq h.depth_eq.symm⟩
  | @step depth final last p rest hrest ih => exact ⟨_, _, rfl, Nat.le_of_eq p.depth_eq.symm⟩
  | call hinner hrest hnext ihInner ihRest =>
    obtain ⟨r, rs, hflat, hd⟩ := ihInner rfl rfl
    exact ⟨r, _, by rw [Tree.flatten, hflat, List.cons_append], Nat.le_of_succ_le hd⟩

theorem flatRun_ne_nil {final : Option Final} {t : Tree keep 1} (h : t.WellFormed final none) :
    flatRun final t ≠ [] := by
  cases final with
  | none =>
    obtain ⟨r, rs, hflat, -⟩ := h.flatten_eq rfl rfl
    simp [flatRun, hflat]
  | some f => simp [flatRun]

end CallTrace.Reconstruction
