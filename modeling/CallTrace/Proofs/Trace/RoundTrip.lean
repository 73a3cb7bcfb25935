import CallTrace.Proofs.Hex.Abbreviated
import CallTrace.Proofs.Hex.Fields
import CallTrace.Proofs.Json.Fields
import CallTrace.Proofs.Table
import CallTrace.Proofs.Trace.Document

namespace CallTrace
open Attempt

theorem Outcome.ofJson_name (o : Outcome) : ofJson (.text o.name) = .ok o := by
  simp [ofJson, ofName?_name]

namespace Step

/-- Memory that is left out is empty. -/
theorem memory_read [Limits] (abbreviate : Bool) {memory : Octets} (h : memory.Fits) :
    ∃ j?, memoryFields abbreviate memory = .ofOption "memory" j? ∧
      Hex.abbreviatedOctets (j?.getD (.text "0x")) = .ok memory := by
  cases memory with
  | nil => exact ⟨none, rfl, Hex.decodeAbbreviated_encode []⟩
  | cons b bs => exact ⟨some _, rfl, Hex.decodeAbbreviated_encodeOctets abbreviate h⟩

theorem slot_of_storageEntry {e : Int × Int} {f : Text × Json} (h : storageEntry e = .ok f) :
    slot f = .ok e := by
  unfold storageEntry at h
  obtain ⟨key, hkey, h⟩ := bind_eq_ok.1 h
  obtain ⟨value, hvalue, h⟩ := bind_eq_ok.1 h
  obtain rfl := Except.ok.inj h
  unfold slot
  rw [Hex.decodeQuantity_of_encodeQuantity hkey, ok_bind, Hex.quantity_of_encodeQuantity hvalue]
  rfl

/-- So is storage; otherwise its entries come in order. -/
theorem storage_read {storage : Table Int} {fields : Fields} (h : storageFields storage = .ok fields) :
    ∃ j?, fields = .ofOption "storage" j? ∧ storageOf (j?.getD .null) = .ok storage := by
  unfold storageFields at h
  obtain ⟨entries, hentries, h⟩ := bind_eq_ok.1 h
  have hfields := Except.ok.inj h
  have hslots : entries.mapM slot = .ok storage.entries :=
    mapM_inverse hentries fun _ _ _ => slot_of_storageEntry
  have hmap : Hex.quantityMap entries = .ok storage := by
    rw [quantityMap_eq, hslots, map_ok, Table.ofList_entries]
  cases entries with
  | nil => exact ⟨none, hfields.symm, hmap⟩
  | cons f fs => exact ⟨some (.object (f :: fs)), hfields.symm, hmap⟩

/-- A step is read back from what is written of it, if there is room for its memory. -/
theorem ofJson_of_toJson [Limits] {abbreviate : Bool} {s : Step} {j : Json} (hs : s.memory.Fits)
    (h : s.toJson abbreviate = .ok j) : ofJson j = .ok s := by
  unfold toJson at h
  obtain ⟨stack, hstack, h⟩ := bind_eq_ok.1 h
  obtain ⟨fields, hfields, h⟩ := bind_eq_ok.1 h
  have hitems : (stack.map Json.text).mapM Hex.quantity = .ok s.stack :=
    Hex.mapM_quantity_texts (fun _ _ => Hex.quantity_of_encodeQuantity) hstack
  obtain ⟨memory?, hmemory, hreadMemory⟩ := memory_read abbreviate hs
  obtain ⟨storage?, hstorage, hreadStorage⟩ := storage_read hfields
  rw [hmemory, hstorage] at h
  obtain rfl := Except.ok.inj h
  simp [ofJson, Fields.concat, Json.field, Hex.quantityAt, Hex.quantity, Json.texts, Json.items, Json.toInt,
    hitems, hreadMemory, hreadStorage, Fault.onMissing_ok]

/-- What is written of a step passes for a step. -/
theorem exists_fields_of_toJson {abbreviate : Bool} {s : Step} {j : Json} (h : s.toJson abbreviate = .ok j) :
    ∃ fields, j = .object fields ∧ Fields.has fields "pc" = true := by
  unfold toJson at h
  obtain ⟨stack, -, h⟩ := bind_eq_ok.1 h
  obtain ⟨storage, -, h⟩ := bind_eq_ok.1 h
  exact ⟨_, (Except.ok.inj h).symm, by simp [Fields.concat, Fields.has]⟩

end Step

namespace Trace

def Fits [Limits] : Trace → Prop
  | .ended _ bs => bs.Fits
  | .step s rest => s.memory.Fits ∧ rest.Fits
  | .call inner rest => inner.Fits ∧ rest.Fits

section
variable [Limits]

instance decidableFits : (t : Trace) → Decidable t.Fits
  | .ended _ bs => inferInstanceAs (Decidable bs.Fits)
  | .step s rest =>
    have := decidableFits rest
    inferInstanceAs (Decidable (s.memory.Fits ∧ rest.Fits))
  | .call inner rest =>
    have := decidableFits inner
    have := decidableFits rest
    inferInstanceAs (Decidable (inner.Fits ∧ rest.Fits))

theorem Fits.data {t : Trace} (h : t.Fits) : t.data.Fits := by
  induction t with
  | ended o bs => exact h
  | step s rest ih => exact ih h.2
  | call inner rest _ ih => exact ih h.2

theorem read_frame {parts : List Json} {es : List Element} (depth : Nat) (o : Outcome) {bs : Octets}
    (hbs : bs.Fits) (hdepth : Limits.admitsDepth readerFrames depth = true)
    (hparts : elementsOfItems depth parts = .ok es) :
    ∃ fields, frame parts o bs = .object fields ∧ Fields.has fields "pc" = false ∧
      Fields.has fields "steps" = true ∧
      (elementsUnder depth fields >>= close fields) = .ok (ofElements es o bs) := by
  have hdata : Hex.abbreviatedOctets (.text (Hex.abbreviated Hex.defaultThreshold bs)) = .ok bs :=
    Hex.decodeAbbreviated_abbreviated Hex.defaultThreshold hbs
  refine ⟨_, rfl, by simp [Fields.has], by simp [Fields.has], ?_⟩
  simp [elementsUnder, elementsOf, hdepth, hparts, close, Json.field, Outcome.ofJson_name, hdata]

theorem elementOf_step {abbreviate : Bool} {s : Step} {j : Json} (depth : Nat) (hs : s.memory.Fits)
    (h : s.toJson abbreviate = .ok j) : elementOf depth j = .ok (.step s) := by
  have hread := Step.ofJson_of_toJson hs h
  obtain ⟨fields, rfl, hpc⟩ := Step.exists_fields_of_toJson h
  rw [elementOf, if_pos hpc, hread]
  rfl

theorem elementOf_frame {parts : List Json} {es : List Element} (depth : Nat) (o : Outcome) {bs : Octets}
    (hbs : bs.Fits) (hdepth : Limits.admitsDepth readerFrames (depth + 1) = true)
    (hparts : elementsOfItems (depth + 1) parts = .ok es) :
    elementOf depth (frame parts o bs) = .ok (.call (ofElements es o bs)) := by
  obtain ⟨fields, hfields, hpc, hsteps, hread⟩ := read_frame (depth + 1) o hbs hdepth hparts
  rw [hfields, elementOf, if_neg (by rw [hpc]; decide), if_pos hsteps, hread]
  rfl

/-- The parts of a trace are read back one by one. A call within it is written and read in the same way as
the trace itself, one level further down. -/
theorem elementsOfItems_of_partsToJson {abbreviate : Bool} {t : Trace} {js : List Json} {depth : Nat}
    (hroom : Limits.admitsDepth readerFrames (depth + t.nesting) = true) (ht : t.Fits)
    (h : t.partsToJson abbreviate = .ok js) : elementsOfItems depth js = .ok t.elements := by
  induction t generalizing depth js with
  | ended o bs =>
    obtain rfl := Except.ok.inj h
    rfl
  | step s rest ih =>
    rw [partsToJson] at h
    obtain ⟨j, hj, h⟩ := bind_eq_ok.1 h
    obtain ⟨js, hjs, h⟩ := bind_eq_ok.1 h
    obtain rfl := Except.ok.inj h
    rw [elementsOfItems, elementOf_step depth ht.1 hj, ok_bind, ih hroom ht.2 hjs]
    rfl
  | call inner rest ihInner ihRest =>
    rw [partsToJson] at h
    obtain ⟨parts, hparts, h⟩ := bind_eq_ok.1 h
    obtain ⟨js, hjs, h⟩ := bind_eq_ok.1 h
    obtain rfl := Except.ok.inj h
    -- The call itself is read one level down, and what stands behind it at this level.
    have hinner : Limits.admitsDepth readerFrames (depth + 1 + inner.nesting) = true :=
      Limits.admitsDepth_of_le (by rw [nesting]; omega) hroom
    have hhere : Limits.admitsDepth readerFrames (depth + 1) = true :=
      Limits.admitsDepth_of_le (by omega) hinner
    have hrest : Limits.admitsDepth readerFrames (depth + rest.nesting) = true :=
      Limits.admitsDepth_of_le (by rw [nesting]; omega) hroom
    rw [elementsOfItems, elementOf_frame depth inner.outcome ht.1.data hhere (ihInner hinner ht.1 hparts),
      ofElements_elements, ok_bind, ihRest hrest ht.2 hjs]
    rfl

theorem ofJson_of_toJson {abbreviate : Bool} {t : Trace} {j : Json}
    (hroom : Limits.admitsDepth readerFrames t.nesting = true) (ht : t.Fits)
    (h : t.toJson abbreviate = .ok j) : ofJson j = .ok t := by
  unfold toJson at h
  split at h
  · cases h
  · obtain ⟨parts, hparts, h⟩ := bind_eq_ok.1 h
    obtain rfl := Except.ok.inj h
    have helements : elementsOfItems 0 parts = .ok t.elements :=
      elementsOfItems_of_partsToJson (by rwa [Nat.zero_add]) ht hparts
    have hzero : Limits.admitsDepth readerFrames 0 = true := Limits.admitsDepth_of_le (Nat.zero_le _) hroom
    obtain ⟨fields, hfields, -, -, hread⟩ := read_frame 0 t.outcome ht.data hzero helements
    rw [hfields, ofJson, hread, Fault.onMissing_ok, ofElements_elements]

end

/-- Nothing of a trace is lost in a document. With room for everything, a trace of any shape whose steps show
no negative numbers is written, and it is read back as it was, whether octets are abbreviated or not. -/
theorem toJson_ofJson (abbreviate : Bool) {t : Trace} (ht : @Fits .unbounded t)
    (hw : ∀ s ∈ t.allSteps, s.Writable) :
    (@toJson .unbounded abbreviate t >>= @ofJson .unbounded) = .ok t := by
  obtain ⟨j, hj⟩ := (exists_toJson_eq_ok abbreviate t).2 hw
  rw [hj, ok_bind]
  exact @ofJson_of_toJson .unbounded abbreviate t j (Limits.admitsDepth_unbounded _ _) ht hj

def nestedCalls : Trace :=
  .step ⟨-1, 0x55, 1, 0x10000, 7, [0, 0x100], 0x01 :: List.replicate 31 0x00, .ofList [(0x20, 0), (3, 0x100)]⟩ <|
    .call (.call (.ended .invalidOpcode []) <| .step ⟨4, 0, 2, -5, 0, [], [], .empty⟩ <| .ended .return []) <|
      .step ⟨9, 0xFD, 1, 3, 2, [0x20, 0], [], .empty⟩ <| .ended .revert (List.replicate 32 0xAB)

theorem toJson_ofJson_nestedCalls :
    @Fits .unbounded nestedCalls ∧ (∀ s ∈ nestedCalls.allSteps, s.Writable) ∧
      (@toJson .unbounded true nestedCalls >>= @ofJson .unbounded) = .ok nestedCalls := by
  have hfits : @Fits .unbounded nestedCalls := by decide +kernel
  have hw : ∀ s ∈ nestedCalls.allSteps, s.Writable := by decide +kernel
  exact ⟨hfits, hw, toJson_ofJson true hfits hw⟩

end Trace

end CallTrace
