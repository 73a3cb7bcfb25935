import CallTrace.Proofs.Memory
import CallTrace.Record.Basic

namespace CallTrace.StepRecord
open Attempt

theorem toStep_eq_ok {keep : Keep} {r : StepRecord} {s : Step} :
    r.toStep keep = .ok s ↔ ∃ stack gas kept memory storage, r.stack.mapM Hex.quantity = .ok stack ∧
      Hex.quantity r.gas = .ok gas ∧ keepTop keep stack = .ok kept ∧ r.memoryOctets = .ok memory ∧
      Step.storageOf (r.storage.getD .null) = .ok storage ∧
      (⟨r.pc, r.op, r.depth, gas, stack.length, kept, memory, storage⟩ : Step) = s := by
  unfold toStep
  simp only [bind_eq_ok, pure_eq, Except.ok.injEq]
  constructor
  · rintro ⟨stack, hst, gas, hg, kept, hk, memory, hm, storage, hsto, rfl⟩
    exact ⟨stack, gas, kept, memory, storage, hst, hg, hk, hm, hsto, rfl⟩
  · rintro ⟨stack, gas, kept, memory, storage, hst, hg, hk, hm, hsto, rfl⟩
    exact ⟨stack, hst, gas, hg, kept, hk, memory, hm, storage, hsto, rfl⟩

theorem depth_of_toStep {keep : Keep} {r : StepRecord} {s : Step} (h : r.toStep keep = .ok s) :
    s.depth = r.depth := by
  obtain ⟨_, _, _, _, _, -, -, -, -, -, rfl⟩ := toStep_eq_ok.1 h
  rfl

theorem op_of_toStep {keep : Keep} {r : StepRecord} {s : Step} (h : r.toStep keep = .ok s) :
    s.op = r.op := by
  obtain ⟨_, _, _, _, _, -, -, -, -, -, rfl⟩ := toStep_eq_ok.1 h
  rfl

theorem stackSize_of_toStep {keep : Keep} {r : StepRecord} {s : Step} (h : r.toStep keep = .ok s) :
    s.stackSize = r.stack.length := by
  obtain ⟨stack, _, _, _, _, hst, -, -, -, -, rfl⟩ := toStep_eq_ok.1 h
  exact congrArg Int.ofNat (mapM_eq_ok.1 hst).length_eq.symm

theorem memory_of_toStep {keep : Keep} {r : StepRecord} {s : Step} (h : r.toStep keep = .ok s) :
    r.memoryOctets = .ok s.memory := by
  obtain ⟨_, _, _, _, _, -, -, -, hm, -, rfl⟩ := toStep_eq_ok.1 h
  exact hm

def operands? (r : StepRecord) : Option (Int × Int) :=
  match r.stack.reverse with
  | offset :: length :: _ =>
    match Hex.quantity offset, Hex.quantity length with
    | .ok offset, .ok length => some (offset, length)
    | _, _ => none
  | _ => none

theorem operands?_eq_some {r : StepRecord} {offset length : Int} :
    r.operands? = some (offset, length) ↔ ∃ j k below, r.stack.reverse = j :: k :: below ∧
      Hex.quantity j = .ok offset ∧ Hex.quantity k = .ok length := by
  unfold operands?
  constructor
  · intro h
    split at h
    · rename_i j k below hst
      split at h
      · rename_i o l ho hl
        cases h
        exact ⟨j, k, below, hst, ho, hl⟩
      · cases h
    · cases h
  · rintro ⟨j, k, below, hst, hj, hk⟩
    simp only [hst, hj, hk]

def end? (memory : Octets) (r : StepRecord) : Option (Outcome × Octets) :=
  if r.op = Opcode.stop ∨ r.op = Opcode.selfdestruct then some (.return, [])
  else if r.op = Opcode.ret then r.operands?.map fun p => (.return, Memory.range memory p.1 p.2)
  else if r.op = Opcode.revert then r.operands?.map fun p => (.revert, Memory.range memory p.1 p.2)
  else none

/-- The instruction gives back more octets beyond the end of the memory than can be counted. -/
def Overruns (memory : Octets) (r : StepRecord) : Prop :=
  (r.op = Opcode.ret ∨ r.op = Opcode.revert) ∧ ∃ offset length : Int, r.operands? = some (offset, length) ∧
    Memory.IsWord offset ∧ Memory.IsWord length ∧
      greatestCount < Memory.beyond memory offset.toNat length.toNat

variable {memory : Octets} {r : StepRecord}

section
variable [Limits]

/-- What the last instruction of a call may be: one that ends it without giving anything back, one that gives
something back, or one that ends no call. -/
theorem ending_cases (memory : Octets) (r : StepRecord) :
    ((r.op = Opcode.stop ∨ r.op = Opcode.selfdestruct) ∧ ¬ (r.op = Opcode.ret ∨ r.op = Opcode.revert) ∧
      r.ending = .ok (.return, []) ∧ r.end? memory = some (.return, [])) ∨
    (∃ o, (r.op = Opcode.ret ∧ o = .return ∨ r.op = Opcode.revert ∧ o = .revert) ∧
      r.ending = r.returned.map (o, ·) ∧
      r.end? memory = r.operands?.map fun p => (o, Memory.range memory p.1 p.2)) ∨
    ¬ (r.op = Opcode.ret ∨ r.op = Opcode.revert) ∧ r.ending = .error (.unexpectedEnd (some r.op)) ∧
      r.end? memory = none := by
  have hbind (o : Outcome) : (r.returned >>= fun bs => .ok (o, bs)) = r.returned.map (o, ·) := by
    cases r.returned <;> rfl
  unfold ending end?
  by_cases hstop : r.op = Opcode.stop ∨ r.op = Opcode.selfdestruct
  · refine .inl ⟨hstop, ?_, if_pos hstop, if_pos hstop⟩
    rcases hstop with hop | hop <;> rw [hop] <;> decide
  · rw [if_neg hstop, if_neg hstop]
    by_cases hret : r.op = Opcode.ret
    · rw [if_pos hret, if_pos hret]
      exact .inr (.inl ⟨.return, .inl ⟨hret, rfl⟩, hbind .return, rfl⟩)
    · rw [if_neg hret, if_neg hret]
      by_cases hrev : r.op = Opcode.revert
      · rw [if_pos hrev, if_pos hrev]
        exact .inr (.inl ⟨.revert, .inr ⟨hrev, rfl⟩, hbind .revert, rfl⟩)
      · rw [if_neg hrev, if_neg hrev]
        exact .inr (.inr ⟨not_or.2 ⟨hret, hrev⟩, rfl, rfl⟩)

theorem returned_eq {offset length : Int} (hm : r.memoryOctets = .ok memory)
    (h : r.operands? = some (offset, length)) :
    r.returned = if Memory.IsWord offset ∧ Memory.IsWord length then Memory.read memory offset length
      else .ok [] := by
  obtain ⟨j, k, below, hst, hj, hk⟩ := operands?_eq_some.1 h
  unfold returned
  simp only [hst, hj, hk, hm, ok_bind]
  by_cases ho : Memory.IsWord offset
  · by_cases hl : Memory.IsWord length
    · simp only [Memory.bounded?_of_isWord ho, Memory.bounded?_of_isWord hl, ho, hl, and_self, if_true]
    · simp only [Memory.bounded?_of_isWord ho, Memory.bounded?_of_not_isWord hl, hl, and_false, if_false]
      rfl
  · simp only [Memory.bounded?_of_not_isWord ho, ho, false_and, if_false]
    rfl

theorem operands?_of_returned {bs : Octets} (h : r.returned = .ok bs) :
    ∃ p, r.operands? = some p := by
  unfold returned at h
  split at h
  · rename_i j k below hst
    simp only [bind_eq_ok] at h
    obtain ⟨o, ho, l, hl, -⟩ := h
    exact ⟨(o, l), operands?_eq_some.2 ⟨j, k, below, hst, ho, hl⟩⟩
  · cases h

theorem returned_eq_ok {bs : Octets} (hm : r.memoryOctets = .ok memory) (h : r.returned = .ok bs) :
    ∃ p, r.operands? = some p ∧ Memory.range memory p.1 p.2 = bs := by
  obtain ⟨⟨o, l⟩, hp⟩ := operands?_of_returned h
  refine ⟨_, hp, ?_⟩
  rw [returned_eq hm hp] at h
  unfold Memory.range
  by_cases hw : Memory.IsWord o ∧ Memory.IsWord l
  · rw [if_pos hw, ← Int.toNat_of_nonneg hw.1.1, ← Int.toNat_of_nonneg hw.2.1] at h
    rw [if_pos hw, Memory.read_eq_ok h]
  · rw [if_neg hw] at h
    rw [if_neg hw, Except.ok.inj h]

theorem end?_of_ending {e : Outcome × Octets} (hm : r.memoryOctets = .ok memory)
    (h : r.ending = .ok e) : r.end? memory = some e := by
  rcases ending_cases memory r with ⟨-, -, hending, hend⟩ | ⟨o, -, hending, hend⟩ | ⟨-, hending, -⟩
  · rw [hend, ← Except.ok.inj (hending.symm.trans h)]
  · rw [hending] at h
    obtain ⟨bs, hbs, rfl⟩ := map_eq_ok.1 h
    obtain ⟨p, hp, rfl⟩ := returned_eq_ok hm hbs
    rw [hend, hp, Option.map_some]
  · cases hending.symm.trans h

theorem ending_of_overruns (hm : r.memoryOctets = .ok memory) (h : r.Overruns memory) :
    r.ending = .error .countTooLarge := by
  obtain ⟨hop, o, l, hp, ho, hl, hlt⟩ := h
  have hreturned : r.returned = .error .countTooLarge := by
    rw [returned_eq hm hp, if_pos ⟨ho, hl⟩, ← Int.toNat_of_nonneg ho.1, ← Int.toNat_of_nonneg hl.1]
    exact Memory.read_of_greatestCount_lt hlt
  rcases ending_cases memory r with ⟨-, hno, -⟩ | ⟨o, -, hending, -⟩ | ⟨hno, -⟩
  · exact absurd hop hno
  · rw [hending, hreturned, map_error]
  · exact absurd hop hno

end

theorem returned_unbounded {p : Int × Int} (hm : r.memoryOctets = .ok memory) (hp : r.operands? = some p)
    (hop : r.op = Opcode.ret ∨ r.op = Opcode.revert) (hc : ¬ r.Overruns memory) :
    @r.returned .unbounded = .ok (Memory.range memory p.1 p.2) := by
  obtain ⟨o, l⟩ := p
  rw [@returned_eq _ _ .unbounded _ _ hm hp]
  unfold Memory.range
  by_cases hw : Memory.IsWord o ∧ Memory.IsWord l
  · have hb : Memory.beyond memory o.toNat l.toNat ≤ greatestCount :=
      Int.not_lt.1 fun hlt => hc ⟨hop, o, l, hp, hw.1, hw.2, hlt⟩
    rw [if_pos hw, if_pos hw, ← Memory.read_unbounded hb, Int.toNat_of_nonneg hw.1.1,
      Int.toNat_of_nonneg hw.2.1]
  · rw [if_neg hw, if_neg hw]

/-- With room for everything an instruction that ends a call ends it, unless it gives back too much to
count. -/
theorem ending_unbounded {e : Outcome × Octets} (hm : r.memoryOctets = .ok memory)
    (h : r.end? memory = some e) (hc : ¬ r.Overruns memory) : @r.ending .unbounded = .ok e := by
  rcases @ending_cases .unbounded memory r with ⟨-, -, hending, hend⟩ | ⟨o, hop, hending, hend⟩ | ⟨-, -, hend⟩
  · rw [hending, Option.some.inj (hend.symm.trans h)]
  · rw [hend] at h
    obtain ⟨p, hp, rfl⟩ := Option.map_eq_some_iff.1 h
    rw [hending, returned_unbounded hm hp (hop.imp And.left And.left) hc, map_ok]
  · cases hend.symm.trans h

end CallTrace.StepRecord
