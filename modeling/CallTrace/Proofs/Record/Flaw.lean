import CallTrace.Proofs.Hex.Fields
import CallTrace.Proofs.Outcome.Reported
import CallTrace.Proofs.Record.Conversion
import CallTrace.Record.Reader

namespace CallTrace
open Attempt

theorem Outcome.escapes_ofExecutionError {e : Json} :
    Escapes (ofExecutionError e) ↔ ∀ s, e ≠ .text s := by
  cases e with
  | text s =>
    refine iff_of_false ?_ (fun h => h s rfl)
    simp only [ofExecutionError, ofExecutionText]
    cases execution? s with
    | none => exact not_escapes_of_isDomain rfl
    | some o => exact not_escapes_ok _
  | _ => exact iff_of_true (Fault.Stray.escapes ⟨rfl, by simp⟩) (by simp)

theorem escapes_slot {e : Text × Json} : Escapes (slot e) ↔ Hex.IsLineEnd e.1 ∨
    (∃ k, Hex.decodeQuantity e.1 = .ok k) ∧ ∃ s, e.2 = .text s ∧ Hex.IsLineEnd s := by
  simp only [slot, escapes_bind, Hex.escapes_decodeQuantity, Hex.escapes_quantity, pure_eq,
    not_escapes_ok, and_false, exists_false, or_false, exists_and_right]

/-- A storage that is no object, or one in which a line end is the first key or value that cannot be
read. -/
inductive FlawedStorage : Json → Prop where
  | shape {j : Json} (hgiven : j.isGiven = true) (h : ∀ fields, j ≠ .object fields) : FlawedStorage j
  | entry {before after : Fields} {key : Text} {value : Json}
    (hbefore : ∀ e ∈ before, (∃ k, Hex.decodeQuantity e.1 = .ok k) ∧ ∃ v, Hex.quantity e.2 = .ok v)
    (hentry : Hex.IsLineEnd key ∨
      (∃ k, Hex.decodeQuantity key = .ok k) ∧ ∃ s, value = .text s ∧ Hex.IsLineEnd s) :
    FlawedStorage (.object (before ++ (key, value) :: after))

theorem escapes_quantityMap {fields : Fields} :
    Escapes (Hex.quantityMap fields) ↔ FlawedStorage (.object fields) := by
  rw [quantityMap_eq, escapes_map, escapes_mapM]
  constructor
  · rintro ⟨before, ⟨key, value⟩, after, rfl, hbefore, he⟩
    exact .entry (fun e h => exists_slot_eq_ok.1 (hbefore e h)) (escapes_slot.1 he)
  · intro h
    cases h with
    | shape hgiven h => exact absurd rfl (h fields)
    | entry hbefore hentry =>
      exact ⟨_, _, _, rfl, fun e h => exists_slot_eq_ok.2 (hbefore e h), escapes_slot.2 hentry⟩

theorem FlawedStorage.isGiven {j : Json} (h : FlawedStorage j) : j.isGiven = true := by
  cases h with
  | shape hgiven h => exact hgiven
  | entry hbefore hentry => simp [Json.isGiven]

theorem escapes_storageOf {j : Json} : Escapes (Step.storageOf j) ↔ FlawedStorage j := by
  unfold Step.storageOf Json.given?
  by_cases hg : j.isGiven = true
  · rw [if_pos hg]
    cases j with
    | object fields => exact escapes_quantityMap
    | _ => exact iff_of_true (Fault.Stray.escapes ⟨rfl, nofun⟩) (.shape hg nofun)
  · rw [if_neg hg]
    exact iff_of_false (not_escapes_ok _) fun h => hg h.isGiven

/-- A step in which a part that cannot be read, with a line end in it or a storage that is none, comes after
parts that can be read. -/
inductive FlawedStep (r : StepRecord) : Prop where
  | stack {before after : List Json} {s : Text} (hsplit : r.stack = before ++ .text s :: after)
    (hbefore : ∀ j ∈ before, ∃ n, Hex.quantity j = .ok n) (hs : Hex.IsLineEnd s)
  | gas {s : Text} (hstack : ∀ j ∈ r.stack, ∃ n, Hex.quantity j = .ok n) (hgas : r.gas = .text s)
    (hs : Hex.IsLineEnd s)
  | memory {s : Text} (hstack : ∀ j ∈ r.stack, ∃ n, Hex.quantity j = .ok n)
    (hgas : ∃ n, Hex.quantity r.gas = .ok n) (hmemory : r.memory = some (.text s)) (hs : Hex.IsOddLine s)
  | storage {j : Json} (hstack : ∀ j ∈ r.stack, ∃ n, Hex.quantity j = .ok n)
    (hgas : ∃ n, Hex.quantity r.gas = .ok n) (hmemory : ∃ m, r.memoryOctets = .ok m)
    (hstorage : r.storage = some j) (hj : FlawedStorage j)

theorem not_isOddLine_mark : ¬ Hex.IsOddLine "0x" := by
  rintro ⟨ds, h, -⟩
  exact absurd h (by simp [Hex.unmark, Text.ofString, Text.ofChars])

theorem escapes_octets_getD {j? : Option Json} :
    Escapes (Hex.octets (j?.getD (.text "0x"))) ↔ ∃ s, j? = some (.text s) ∧ Hex.IsOddLine s := by
  rw [Hex.escapes_octets]
  cases j? with
  | none => simpa using not_isOddLine_mark
  | some j => simp

theorem escapes_memoryOctets {r : StepRecord} :
    Escapes r.memoryOctets ↔ ∃ s, r.memory = some (.text s) ∧ Hex.IsOddLine s := escapes_octets_getD

theorem escapes_outputOctets {r : StepRecord} :
    Escapes r.outputOctets ↔ ∃ s, r.output = some (.text s) ∧ Hex.IsOddLine s := by
  unfold StepRecord.outputOctets
  cases r.output with
  | none => simp [not_escapes_ok]
  | some j => simp [Hex.escapes_octets]

/-- The parts of a step are read in order: its stack, its gas, its memory and its storage. -/
theorem escapes_toStep {size : Nat} {r : StepRecord} : Escapes (r.toStep (.top size)) ↔ FlawedStep r := by
  unfold StepRecord.toStep
  constructor
  · intro h
    rcases escapes_bind.1 h with h | ⟨stack, hst, h⟩
    · obtain ⟨before, j, after, hsplit, hbefore, hj⟩ := escapes_mapM.1 h
      obtain ⟨s, rfl, hs⟩ := Hex.escapes_quantity.1 hj
      exact .stack hsplit hbefore hs
    have hstack := exists_mapM_eq_ok.1 ⟨stack, hst⟩
    rcases escapes_bind.1 h with h | ⟨gas, hgas, h⟩
    · obtain ⟨s, hg, hs⟩ := Hex.escapes_quantity.1 h
      exact .gas hstack hg hs
    -- To keep the top of a stack never fails, as the count of its items is a natural number.
    rw [keepTop_natural, ok_bind] at h
    rcases escapes_bind.1 h with h | ⟨memory, hmemory, h⟩
    · obtain ⟨s, hm, hs⟩ := escapes_memoryOctets.1 h
      exact .memory hstack ⟨gas, hgas⟩ hm hs
    rcases escapes_bind.1 h with h | ⟨storage, -, h⟩
    · cases hstorage : r.storage with
      | none =>
        rw [hstorage] at h
        exact absurd h (not_escapes_ok _)
      | some j =>
        rw [hstorage] at h
        exact .storage hstack ⟨gas, hgas⟩ ⟨memory, hmemory⟩ hstorage (escapes_storageOf.1 h)
    · exact absurd h (not_escapes_ok _)
  · intro h
    cases h with
    | stack hsplit hbefore hs =>
      refine escapes_bind.2 (.inl (escapes_mapM.2 ⟨_, _, _, hsplit, hbefore, ?_⟩))
      exact Hex.escapes_quantity.2 ⟨_, rfl, hs⟩
    | gas hstack hgas hs =>
      obtain ⟨stack, hst⟩ := exists_mapM_eq_ok.2 hstack
      rw [hst, ok_bind]
      exact escapes_bind.2 (.inl (Hex.escapes_quantity.2 ⟨_, hgas, hs⟩))
    | memory hstack hgas hmemory hs =>
      obtain ⟨stack, hst⟩ := exists_mapM_eq_ok.2 hstack
      obtain ⟨gas, hgas⟩ := hgas
      rw [hst, ok_bind, hgas, ok_bind, keepTop_natural, ok_bind]
      exact escapes_bind.2 (.inl (escapes_memoryOctets.2 ⟨_, hmemory, hs⟩))
    | storage hstack hgas hmemory hstorage hj =>
      obtain ⟨stack, hst⟩ := exists_mapM_eq_ok.2 hstack
      obtain ⟨gas, hgas⟩ := hgas
      obtain ⟨memory, hmemory⟩ := hmemory
      rw [hst, ok_bind, hgas, ok_bind, keepTop_natural, ok_bind, hmemory, ok_bind, hstorage, Option.getD_some]
      exact escapes_bind.2 (.inl (escapes_storageOf.2 hj))

/-- A summary whose output is a line with an odd number of digits, or whose error is no text. -/
inductive FlawedSummary (s : Summary) : Prop where
  | output {t : Text} (h : s.output = some (.text t)) (ht : Hex.IsOddLine t)
  | error {e : Json} (houtput : ∃ bs, Hex.octets (s.output.getD (.text "0x")) = .ok bs)
    (h : s.error = some e) (he : ∀ t, e ≠ .text t)

theorem escapes_summary_ending {s : Summary} : Escapes s.ending ↔ FlawedSummary s := by
  unfold Summary.ending
  constructor
  · intro h
    rcases escapes_bind.1 h with h | ⟨bs, hbs, h⟩
    · obtain ⟨t, houtput, ht⟩ := escapes_octets_getD.1 h
      exact .output houtput ht
    · cases he : s.error with
      | none =>
        rw [he] at h
        exact absurd h (not_escapes_ok _)
      | some e =>
        simp only [he] at h
        rcases escapes_bind.1 h with h | ⟨o, -, h⟩
        · exact .error ⟨bs, hbs⟩ he (Outcome.escapes_ofExecutionError.1 h)
        · exact absurd h (not_escapes_ok _)
  · intro h
    cases h with
    | output houtput ht => exact escapes_bind.2 (.inl (escapes_octets_getD.2 ⟨_, houtput, ht⟩))
    | error houtput he htext =>
      obtain ⟨bs, hbs⟩ := houtput
      simp only [hbs, ok_bind, he]
      exact escapes_bind.2 (.inl (Outcome.escapes_ofExecutionError.2 htext))

theorem not_escapes_returned [Limits] {r : StepRecord} (h : r.operands? = none)
    (hstack : ∀ j ∈ r.stack, ∃ n, Hex.quantity j = .ok n) : ¬ Escapes r.returned := by
  unfold StepRecord.returned
  split
  · rename_i j k below hst
    obtain ⟨o, ho⟩ := hstack j (List.mem_reverse.1 (by rw [hst]; simp))
    obtain ⟨l, hl⟩ := hstack k (List.mem_reverse.1 (by rw [hst]; simp))
    rw [StepRecord.operands?_eq_some.2 ⟨j, k, below, hst, ho, hl⟩] at h
    cases h
  · exact not_escapes_of_isDomain rfl

/-- With room for everything a step that could be read lets a fault out, as the last step of a call, if it
gives back too much to count. -/
theorem escapes_ending {keep : Keep} {r : StepRecord} {s : Step} (hs : r.toStep keep = .ok s) :
    Escapes (@StepRecord.ending .unbounded r) ↔ r.Overruns s.memory := by
  let _ : Limits := .unbounded
  have hm := StepRecord.memory_of_toStep hs
  -- The step could be converted, so its operands can be read as well.
  obtain ⟨stack, -, -, -, -, hst, -, -, -, -, -⟩ := StepRecord.toStep_eq_ok.1 hs
  have hstack := exists_mapM_eq_ok.1 ⟨stack, hst⟩
  constructor
  · intro h
    by_contra hover
    rcases StepRecord.ending_cases s.memory r with ⟨-, -, hending, -⟩ | ⟨o, hop, hending, -⟩ | ⟨-, hending, -⟩
    · rw [hending] at h
      exact not_escapes_ok _ h
    · rw [hending, escapes_map] at h
      cases hp : r.operands? with
      | none => exact not_escapes_returned hp hstack h
      | some p =>
        rw [StepRecord.returned_unbounded hm hp (hop.imp And.left And.left) hover] at h
        exact not_escapes_ok _ h
    · rw [hending] at h
      exact not_escapes_of_isDomain rfl h
  · intro h
    rw [StepRecord.ending_of_overruns hm h]
    exact Fault.Stray.escapes ⟨rfl, nofun⟩

namespace Record

theorem not_escapes_read? (n : Nat) (s : Text) : ¬ Escapes ((Line.text s).read? n) := by
  show ¬ Escapes (if Text.allBlank s then .ok none else Line.decoded n (Json.read s))
  split
  · exact not_escapes_ok _
  · unfold Line.decoded
    split
    · exact not_escapes_ok _
    · rw [escapes_error]
      exact fun h => h.2 rfl
    · exact not_escapes_of_isDomain rfl

theorem not_escapes_intField (n : Nat) (fields : Fields) (key : Text) :
    ¬ Escapes (intField n fields key) := by
  unfold intField
  split
  · exact not_escapes_of_isDomain rfl
  · exact not_escapes_ok _
  · exact not_escapes_of_isDomain rfl

theorem not_escapes_gasField (n : Nat) (fields : Fields) : ¬ Escapes (gasField n fields) := by
  unfold gasField
  split
  · exact not_escapes_of_isDomain rfl
  · exact not_escapes_ok _
  · exact not_escapes_ok _
  · exact not_escapes_of_isDomain rfl

theorem not_escapes_stackField (n : Nat) (fields : Fields) : ¬ Escapes (stackField n fields) := by
  unfold stackField
  split
  · exact not_escapes_ok _
  · exact not_escapes_ok _
  · exact not_escapes_of_isDomain rfl

theorem not_escapes_stepOf (n : Nat) (fields : Fields) : ¬ Escapes (stepOf n fields) := by
  refine not_escapes_bind (not_escapes_intField n fields "pc") fun pc => ?_
  refine not_escapes_bind (not_escapes_intField n fields "op") fun op => ?_
  refine not_escapes_bind (not_escapes_intField n fields "depth") fun depth => ?_
  refine not_escapes_bind (not_escapes_gasField n fields) fun gas => ?_
  split
  · exact not_escapes_of_isDomain rfl
  · exact not_escapes_bind (not_escapes_stackField n fields) fun stack => not_escapes_ok _

theorem not_escapes_ofJson (n : Nat) (j : Json) : ¬ Escapes (ofJson n j) := by
  unfold ofJson
  split
  · split
    · rw [fmap_eq, escapes_map]
      exact not_escapes_stepOf _ _
    · split
      · exact not_escapes_ok _
      · exact not_escapes_of_isDomain rfl
  · exact not_escapes_of_isDomain rfl

/-- The lines of a log may be wrong in any way. -/
theorem not_escapes_ofLines (lines : List Text) : ¬ Escapes (ofLines (lines.map .text)) := by
  unfold ofLines
  generalize 1 = n
  induction lines generalizing n with
  | nil => exact not_escapes_ok _
  | cons s lines ih =>
    have hline : ¬ Escapes (ofLine? n (.text s)) := by
      refine not_escapes_bind (not_escapes_read? n s) fun j? => ?_
      cases j? with
      | none => exact not_escapes_ok _
      | some j => exact not_escapes_bind (not_escapes_ofJson n j) fun r => not_escapes_ok _
    exact not_escapes_bind hline fun r? => not_escapes_bind (ih (n + 1)) fun rs => not_escapes_ok _

end Record

end CallTrace
