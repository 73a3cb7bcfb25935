import CallTrace.Proofs.Json.Fields
import CallTrace.Record.Reader

namespace CallTrace
open Attempt

namespace StepRecord

/-- The record of a step as the fields of an object tell of it. -/
structure ReadFrom (fields : Fields) (r : StepRecord) : Prop where
  pc : fields.value? "pc" = some (.int r.pc)
  op : fields.value? "op" = some (.int r.op)
  depth : fields.value? "depth" = some (.int r.depth)
  depth_pos : 0 < r.depth
  gas : fields.value? "gas" = some r.gas
  gas_sort : (∃ i, r.gas = .int i) ∨ ∃ s, r.gas = .text s
  stack : (fields.value? "stack").bind Json.given? = none ∧ r.stack = [] ∨
    (fields.value? "stack").bind Json.given? = some (.list r.stack)
  memory : r.memory = Record.given? fields "memory"
  storage : r.storage = Record.given? fields "storage"
  error : r.error = Record.given? fields "error"
  output : r.output = Record.given? fields "output"
  source : r.source = fields

end StepRecord

namespace Record

theorem intField_eq_ok {n : Nat} {fields : Fields} {key : Text} {i : Int} :
    intField n fields key = .ok i ↔ fields.value? key = some (.int i) := by
  unfold intField
  cases fields.value? key with
  | none => simp
  | some j => cases j <;> simp

theorem gasField_eq_ok {n : Nat} {fields : Fields} {gas : Json} :
    gasField n fields = .ok gas ↔
      fields.value? "gas" = some gas ∧ ((∃ i, gas = .int i) ∨ ∃ s, gas = .text s) := by
  unfold gasField
  cases fields.value? "gas" with
  | none => simp
  | some j => cases j <;> simp <;> grind

theorem stackField_eq_ok {n : Nat} {fields : Fields} {items : List Json} :
    stackField n fields = .ok items ↔ (fields.value? "stack").bind Json.given? = none ∧ items = [] ∨
      (fields.value? "stack").bind Json.given? = some (.list items) := by
  unfold stackField
  cases (fields.value? "stack").bind Json.given? with
  | none => simp [eq_comm]
  | some j => cases j <;> simp

theorem stepOf_eq_ok {n : Nat} {fields : Fields} {r : StepRecord} :
    stepOf n fields = .ok r ↔ StepRecord.ReadFrom fields r := by
  constructor
  · intro h
    obtain ⟨pc, hpc, h⟩ := bind_eq_ok.1 h
    obtain ⟨op, hop, h⟩ := bind_eq_ok.1 h
    obtain ⟨depth, hdepth, h⟩ := bind_eq_ok.1 h
    obtain ⟨gas, hgas, h⟩ := bind_eq_ok.1 h
    split at h
    · cases h
    · rename_i hpos
      obtain ⟨stack, hstack, h⟩ := bind_eq_ok.1 h
      obtain rfl := Except.ok.inj h
      obtain ⟨hgas, hsort⟩ := gasField_eq_ok.1 hgas
      have hnat : ((depth.toNat : Nat) : Int) = depth := Int.toNat_of_nonneg (by omega)
      exact ⟨intField_eq_ok.1 hpc, intField_eq_ok.1 hop, hnat.symm ▸ intField_eq_ok.1 hdepth,
        (by omega : 0 < depth.toNat), hgas, hsort, stackField_eq_ok.1 hstack, rfl, rfl, rfl, rfl, rfl⟩
  · intro h
    have hpos : ¬ (r.depth : Int) < 1 := by
      have := h.depth_pos
      omega
    obtain rfl := h.source
    unfold stepOf
    rw [intField_eq_ok.2 h.pc, ok_bind, intField_eq_ok.2 h.op, ok_bind, intField_eq_ok.2 h.depth, ok_bind,
      gasField_eq_ok.2 ⟨h.gas, h.gas_sort⟩, ok_bind, if_neg hpos, stackField_eq_ok.2 h.stack,
      ok_bind, ← h.memory, ← h.storage, ← h.error, ← h.output]
    rfl

/-- Lines that hold the fields of step records are read as those records. -/
theorem ofLinesFrom_sources {rs : List StepRecord} (h : ∀ r ∈ rs, StepRecord.ReadFrom r.source r) (n : Nat) :
    ofLinesFrom n (rs.map fun r => .value (.object r.source)) = .ok (rs.map .step) := by
  induction rs generalizing n with
  | nil => rfl
  | cons r rs ih =>
    obtain ⟨hr, hrs⟩ := List.forall_mem_cons.1 h
    have hpc : Fields.has r.source "pc" = true := by rw [Fields.has, hr.pc, Option.isSome_some]
    have hline : ofLine? n (.value (.object r.source)) = .ok (some (.step r)) := by
      show (ofJson n (.object r.source) >>= fun r => .ok (some r)) = _
      rw [ofJson, if_pos hpc, stepOf_eq_ok.2 hr]
      rfl
    rw [List.map_cons, ofLinesFrom, hline, ok_bind, ih hrs]
    rfl

/-- Each step record of a log is told by its own fields. -/
theorem readFrom_of_ofLinesFrom {n : Nat} {lines : List Line} {rs : List Record} {r : StepRecord}
    (h : ofLinesFrom n lines = .ok rs) (hr : .step r ∈ rs) : StepRecord.ReadFrom r.source r := by
  induction lines generalizing n rs with
  | nil =>
    cases h
    cases hr
  | cons line lines ih =>
    obtain ⟨r?, hr?, h⟩ := bind_eq_ok.1 h
    obtain ⟨rs', hrs', h⟩ := bind_eq_ok.1 h
    obtain rfl := Except.ok.inj h
    rcases List.mem_append.1 hr with hr | hr
    · obtain rfl := Option.mem_toList.1 hr
      obtain ⟨j?, -, hr?⟩ := bind_eq_ok.1 hr?
      cases j? with
      | none => cases hr?
      | some j =>
        obtain ⟨record, hrecord, hsome⟩ := bind_eq_ok.1 hr?
        cases hsome
        unfold ofJson at hrecord
        split at hrecord
        · split at hrecord
          · obtain ⟨r', hr', he⟩ := map_eq_ok.1 hrecord
            cases he
            have hread := stepOf_eq_ok.1 hr'
            exact hread.source.symm ▸ hread
          · split at hrecord <;> cases hrecord
        · cases hrecord
    · exact ih hrs' hr

end Record

namespace StepRecord

def atDepth (depth : Nat) (r : StepRecord) : StepRecord :=
  { r with depth := depth, source := r.source.put "depth" (.int depth) }

theorem atDepth_atDepth (m n : Nat) (r : StepRecord) : (r.atDepth m).atDepth n = r.atDepth n := by
  simp only [atDepth, Fields.put_put]

theorem ReadFrom.atDepth_self {r : StepRecord} (h : ReadFrom r.source r) : r.atDepth r.depth = r := by
  simp only [atDepth, Fields.put_of_value? h.depth]

theorem ReadFrom.atDepth {r : StepRecord} (h : ReadFrom r.source r) {depth : Nat} (hpos : 0 < depth) :
    ReadFrom (r.atDepth depth).source (r.atDepth depth) := by
  have hother : ∀ key : Text, key ≠ "depth" →
      Fields.value? (r.atDepth depth).source key = r.source.value? key := fun key hkey =>
    Fields.value?_put_ne hkey r.source _
  have hgiven : ∀ key : Text, key ≠ "depth" →
      Record.given? (r.atDepth depth).source key = Record.given? r.source key := fun key hkey => by
    rw [Record.given?, hother key hkey, Record.given?]
  constructor
  · exact (hother "pc" (by decide)).trans h.pc
  · exact (hother "op" (by decide)).trans h.op
  · exact Fields.value?_put_self r.source "depth" _
  · exact hpos
  · exact (hother "gas" (by decide)).trans h.gas
  · exact h.gas_sort
  · rw [hother "stack" (by decide)]
    exact h.stack
  · exact h.memory.trans (hgiven "memory" (by decide)).symm
  · exact h.storage.trans (hgiven "storage" (by decide)).symm
  · exact h.error.trans (hgiven "error" (by decide)).symm
  · exact h.output.trans (hgiven "output" (by decide)).symm
  · rfl

end StepRecord

end CallTrace
