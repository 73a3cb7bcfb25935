import CallTrace.Proofs.Attempt
import CallTrace.Proofs.Trace.Steps
import CallTrace.Trace.Document

namespace CallTrace
open Attempt

def Step.Writable (s : Step) : Prop :=
  (∀ n ∈ s.stack, 0 ≤ n) ∧ ∀ e ∈ s.storage.entries, 0 ≤ e.1 ∧ 0 ≤ e.2

instance (s : Step) : Decidable s.Writable := inferInstanceAs (Decidable (_ ∧ _))

theorem Hex.exists_encodeQuantity_eq_ok {n : Int} : (∃ t, encodeQuantity n = .ok t) ↔ 0 ≤ n := by
  unfold encodeQuantity
  split
  · exact iff_of_false (by simp) (by omega)
  · exact iff_of_true ⟨_, rfl⟩ (by omega)

theorem Step.exists_storageEntry_eq_ok {e : Int × Int} :
    (∃ p, storageEntry e = .ok p) ↔ 0 ≤ e.1 ∧ 0 ≤ e.2 := by
  rw [← Hex.exists_encodeQuantity_eq_ok, ← Hex.exists_encodeQuantity_eq_ok]
  simp only [storageEntry, bind_eq_ok, pure_eq, Except.ok.injEq]
  constructor
  · rintro ⟨p, k, hk, v, hv, -⟩
    exact ⟨⟨k, hk⟩, v, hv⟩
  · rintro ⟨⟨k, hk⟩, v, hv⟩
    exact ⟨_, k, hk, v, hv, rfl⟩

theorem Step.exists_toJson_eq_ok (abbreviate : Bool) (s : Step) :
    (∃ j, s.toJson abbreviate = .ok j) ↔ s.Writable := by
  have hstack : (∀ n ∈ s.stack, 0 ≤ n) ↔ ∃ ts, s.stack.mapM Hex.encodeQuantity = .ok ts := by
    simp only [exists_mapM_eq_ok, Hex.exists_encodeQuantity_eq_ok]
  have hstorage : (∀ e ∈ s.storage.entries, 0 ≤ e.1 ∧ 0 ≤ e.2) ↔
      ∃ es, s.storage.entries.mapM storageEntry = .ok es := by
    simp only [exists_mapM_eq_ok, exists_storageEntry_eq_ok]
  rw [Writable, hstack, hstorage]
  simp only [toJson, storageFields, bind_eq_ok, pure_eq, Except.ok.injEq]
  constructor
  · rintro ⟨j, ts, hts, fields, ⟨es, hes, -⟩, -⟩
    exact ⟨⟨ts, hts⟩, es, hes⟩
  · rintro ⟨⟨ts, hts⟩, es, hes⟩
    exact ⟨_, ts, hts, _, ⟨es, hes, rfl⟩, rfl⟩

namespace Trace

theorem exists_partsToJson_eq_ok (abbreviate : Bool) (t : Trace) :
    (∃ js, t.partsToJson abbreviate = .ok js) ↔ ∀ s ∈ t.allSteps, s.Writable := by
  induction t with
  | ended o bs => simp [partsToJson, allSteps]
  | step s rest ih =>
    rw [allSteps, List.forall_mem_cons, ← ih, ← Step.exists_toJson_eq_ok abbreviate]
    simp only [partsToJson, bind_eq_ok, pure_eq, Except.ok.injEq]
    constructor
    · rintro ⟨_, j, hj, js, hjs, -⟩
      exact ⟨⟨j, hj⟩, js, hjs⟩
    · rintro ⟨⟨j, hj⟩, js, hjs⟩
      exact ⟨_, j, hj, js, hjs, rfl⟩
  | call inner rest ihInner ihRest =>
    rw [allSteps, List.forall_mem_append, ← ihInner, ← ihRest]
    simp only [partsToJson, bind_eq_ok, pure_eq, Except.ok.injEq]
    constructor
    · rintro ⟨_, parts, hparts, js, hjs, -⟩
      exact ⟨⟨parts, hparts⟩, js, hjs⟩
    · rintro ⟨⟨parts, hparts⟩, js, hjs⟩
      exact ⟨_, parts, hparts, js, hjs, rfl⟩

/-- With room for everything a trace can be written just if all of its steps can be. -/
theorem exists_toJson_eq_ok (abbreviate : Bool) (t : Trace) :
    (∃ j, @toJson .unbounded abbreviate t = .ok j) ↔ ∀ s ∈ t.allSteps, s.Writable := by
  rw [← exists_partsToJson_eq_ok abbreviate]
  show (∃ j, (t.partsToJson abbreviate >>= fun parts => .ok (frame parts t.outcome t.data)) = .ok j) ↔ _
  simp only [bind_eq_ok, Except.ok.injEq]
  constructor
  · rintro ⟨_, parts, hparts, -⟩
    exact ⟨parts, hparts⟩
  · rintro ⟨parts, hparts⟩
    exact ⟨_, parts, hparts, rfl⟩

end Trace

end CallTrace
