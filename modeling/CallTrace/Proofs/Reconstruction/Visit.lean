import Mathlib.Logic.Relation
import CallTrace.Proofs.Reconstruction.Reading

namespace CallTrace.Reconstruction
open Attempt

/-- Where the reading of a run is: the depth of the call at hand, its last step, and the records ahead. -/
structure Place where
  depth : Nat
  last : Option StepRecord
  records : List Record

variable [Limits] {keep : Keep} {p q : Place}

def Place.read (keep : Keep) (p : Place) : Except Fault (Trace × List Record) :=
  Reconstruction.read keep p.depth p.last p.records

inductive Moves (keep : Keep) : Place → Place → Prop where
  | enter {depth last r rs} (hd : depth < r.depth) (hroom : Limits.admitsDepth 1 (depth + 1) = true) :
    Moves keep ⟨depth, last, .step r :: rs⟩ ⟨depth + 1, none, .step r :: rs⟩
  | resume {depth last r rs inner left} (hd : depth < r.depth)
    (hroom : Limits.admitsDepth 1 (depth + 1) = true)
    (hinner : Reads keep (depth + 1) none (.step r :: rs) inner left) :
    Moves keep ⟨depth, last, .step r :: rs⟩ ⟨depth, last, left⟩
  | next {depth last r rs s} (hd : r.depth = depth) (he : r.error = none) (hs : r.toStep keep = .ok s) :
    Moves keep ⟨depth, last, .step r :: rs⟩ ⟨depth, some r, rs⟩

abbrev Reaches (keep : Keep) : Place → Place → Prop := Relation.ReflTransGen (Moves keep)

inductive Fails (keep : Keep) : Place → Fault → Prop where
  | tooDeep {depth last r rs} (hd : depth < r.depth) (hroom : Limits.admitsDepth 1 (depth + 1) = false) :
    Fails keep ⟨depth, last, .step r :: rs⟩ .tooDeep
  | closing {depth last rs f} (hs : Stops depth rs) (hf : closing last = .error f) :
    Fails keep ⟨depth, last, rs⟩ f
  | summary {depth last s rs f} (hd : depth ≤ 1) (hf : s.ending = .error f) :
    Fails keep ⟨depth, last, .summary s :: rs⟩ f
  | error {depth last r rs e f} (hd : r.depth = depth) (he : r.error = some e)
    (hf : halted keep r e = .error f) : Fails keep ⟨depth, last, .step r :: rs⟩ f
  | step {depth last r rs f} (hd : r.depth = depth) (he : r.error = none) (hf : r.toStep keep = .error f) :
    Fails keep ⟨depth, last, .step r :: rs⟩ f

theorem Fails.read_eq {f : Fault} (h : Fails keep p f) : p.read keep = .error f := by
  unfold Place.read
  cases h with
  | tooDeep hd hroom => rw [read_deeper hd, hroom, if_neg Bool.false_ne_true]
  | closing hs hf => rw [read_of_stops hs, hf, map_error]
  | summary hd hf => rw [read_summary hd, hf, map_error]
  | error hd he hf => rw [read_error hd he, hf, map_error]
  | step hd he hf => rw [read_step hd he, hf, error_bind]

/-- A place fails with what a place fails with that it moves on to. -/
theorem Moves.read_eq {f : Fault} (h : Moves keep p q) (hq : q.read keep = .error f) :
    p.read keep = .error f := by
  unfold Place.read at hq ⊢
  cases h with
  | enter hd hroom => rw [read_deeper hd, if_pos hroom, hq, error_bind]
  | resume hd hroom hinner =>
    rw [read_deeper hd, if_pos hroom, read_of_reads hinner, ok_bind, hq, error_bind]
  | next hd he hs => rw [read_step hd he, hs, ok_bind, hq, error_bind]

theorem Reaches.read_eq {f : Fault} (h : Reaches keep p q) (hq : q.read keep = .error f) :
    p.read keep = .error f := by
  induction h with
  | refl => exact hq
  | tail hreach hmove ih => exact ih (hmove.read_eq hq)

/-- A fault comes from a place that is reached. -/
theorem exists_fails_of_read {depth : Nat} {last : Option StepRecord} {rs : List Record} {f : Fault}
    (h : read keep depth last rs = .error f) : ∃ q, Reaches keep ⟨depth, last, rs⟩ q ∧ Fails keep q f := by
  induction depth, last, rs using frame_induction keep with
  | stops depth last rs hs =>
    rw [read_of_stops hs, map_eq_error] at h
    exact ⟨_, .refl, .closing hs h⟩
  | summary depth last s rs hd =>
    rw [read_summary hd, map_eq_error] at h
    exact ⟨_, .refl, .summary hd h⟩
  | deeper depth last r rs hd ihInner ihRest =>
    rw [read_deeper hd] at h
    by_cases hroom : Limits.admitsDepth 1 (depth + 1) = true
    · rw [if_pos hroom] at h
      -- Either the call fails that begins here, or it is read and what stands behind it fails.
      rcases bind_eq_error.1 h with h | ⟨⟨inner, left⟩, hinner, h⟩
      · obtain ⟨q, hq, hf⟩ := ihInner h
        exact ⟨q, hq.head (.enter hd hroom), hf⟩
      · rcases bind_eq_error.1 h with h | ⟨rest, -, h⟩
        · obtain ⟨q, hq, hf⟩ := ihRest inner left hinner h
          exact ⟨q, hq.head (.resume hd hroom (reads_of_read hinner)), hf⟩
        · cases h
    · rw [if_neg hroom] at h
      cases h
      exact ⟨_, .refl, .tooDeep hd (Bool.not_eq_true _ ▸ hroom)⟩
  | error depth last r rs e hd he =>
    rw [read_error hd he, map_eq_error] at h
    exact ⟨_, .refl, .error hd he h⟩
  | step depth last r rs hd he ih =>
    rw [read_step hd he] at h
    rcases bind_eq_error.1 h with h | ⟨s, hs, h⟩
    · exact ⟨_, .refl, .step hd he h⟩
    · rcases bind_eq_error.1 h with h | ⟨rest, -, h⟩
      · obtain ⟨q, hq, hf⟩ := ih h
        exact ⟨q, hq.head (.next hd he hs), hf⟩
      · cases h

/-- Reading fails with a fault just if some place on the way does. -/
theorem read_eq_error {f : Fault} : p.read keep = .error f ↔ ∃ q, Reaches keep p q ∧ Fails keep q f := by
  constructor
  · exact exists_fails_of_read
  · rintro ⟨q, hreach, hf⟩
    exact hreach.read_eq hf.read_eq

def Place.Converted (keep : Keep) (p : Place) : Prop := ∀ r, p.last = some r → ∃ s, r.toStep keep = .ok s

theorem Moves.converted (h : Moves keep p q) (hp : p.Converted keep) : q.Converted keep := by
  cases h with
  | enter hd hroom => intro r hr; cases hr
  | resume hd hroom hinner => exact hp
  | next hd he hs =>
    intro r hr
    exact ⟨_, Option.some.inj hr ▸ hs⟩

theorem Reaches.converted (h : Reaches keep p q) (hp : p.Converted keep) : q.Converted keep := by
  induction h with
  | refl => exact hp
  | tail hreach hmove ih => exact hmove.converted ih

end CallTrace.Reconstruction
