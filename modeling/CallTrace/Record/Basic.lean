import CallTrace.Hex.Fields
import CallTrace.Memory
import CallTrace.Outcome.Reported
import CallTrace.Stack
import CallTrace.Trace.Step

namespace CallTrace

/-- An instruction about to run. The counters are checked when the record is read; the rest is read when
it is needed. -/
structure StepRecord where
  pc : Int
  op : Int
  /-- The depth of the call, the outermost call being at one. -/
  depth : Nat
  gas : Json
  /-- The stack, its top last. -/
  stack : List Json
  memory : Option Json
  storage : Option Json
  error : Option Json
  output : Option Json
  source : Fields

/-- The end of the run. -/
structure Summary where
  output : Option Json
  error : Option Json
  source : Fields

inductive Record where
  | step (r : StepRecord)
  | summary (s : Summary)

namespace StepRecord

/-- A marker that some tools write for a revert, beside the step that reverts. -/
def isMarker (r : StepRecord) : Bool :=
  match r.error with
  | some (.text s) => s = Outcome.revertText
  | _ => false

def memoryOctets (r : StepRecord) : Except Fault Octets := Hex.octets (r.memory.getD (.text "0x"))

/-- The step that a record tells of, with so many items of its stack. -/
def toStep (keep : Keep) (r : StepRecord) : Except Fault Step := do
  let stack ← r.stack.mapM Hex.quantity
  let gas ← Hex.quantity r.gas
  let kept ← keepTop keep stack
  let memory ← r.memoryOctets
  let storage ← Step.storageOf (r.storage.getD .null)
  return ⟨r.pc, r.op, r.depth, gas, stack.length, kept, memory, storage⟩

/-- What an instruction that returns gives back: the part of the memory that its two operands name, the
offset on top. A part that no memory can reach is empty. -/
def returned [Limits] (r : StepRecord) : Except Fault Octets :=
  match r.stack.reverse with
  | offset :: length :: _ => do
    let offset ← Hex.quantity offset
    let length ← Hex.quantity length
    match Memory.bounded? Memory.greatest offset, Memory.bounded? Memory.greatest length with
    | some offset, some length => Memory.read (← r.memoryOctets) offset length
    | _, _ => return []
  | _ => .error (.missingOperands r.op r.pc ((Fields.value? r.source "opName").getD (.int r.op)) r.stack.length)

/-- How a call ends whose last instruction this is. -/
def ending [Limits] (r : StepRecord) : Except Fault (Outcome × Octets) :=
  if r.op = Opcode.stop ∨ r.op = Opcode.selfdestruct then .ok (.return, [])
  else if r.op = Opcode.ret then return (.return, ← r.returned)
  else if r.op = Opcode.revert then return (.revert, ← r.returned)
  else .error (.unexpectedEnd (some r.op))

/-- What a step that halts with an error leaves behind. -/
def outputOctets (r : StepRecord) : Except Fault Octets :=
  match r.output with
  | none => .ok []
  | some j => Hex.octets j

end StepRecord

/-- How the run ended, in the words of its summary. -/
def Summary.ending (s : Summary) : Except Fault (Outcome × Octets) := do
  let output ← Hex.octets (s.output.getD (.text "0x"))
  match s.error with
  | none => return (.return, output)
  | some error =>
    let outcome ← Outcome.ofExecutionError error
    return (outcome, if outcome.hasData then output else [])

namespace Record

def source : Record → Json
  | .step r => .object r.source
  | .summary s => .object s.source

def isMarker : Record → Bool
  | .step r => r.isMarker
  | .summary _ => false

end Record

end CallTrace
