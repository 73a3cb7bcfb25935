import CallTrace.Hex.Fields
import CallTrace.Number.Decimal
import CallTrace.Opcode
import CallTrace.Trace.Indent

namespace CallTrace

/-- One instruction as it ran. The stack holds its top alone, the last item uppermost; `stackSize` counts
all of it. -/
structure Step where
  pc : Int
  op : Int
  depth : Int
  gas : Int
  stackSize : Int
  stack : List Int
  memory : Octets
  storage : Table Int
deriving DecidableEq, Inhabited

namespace Step

def mnemonic (s : Step) : Text := Opcode.mnemonic s.op

def stackText (size : Int) (items : List Text) : Except Fault Text := do
  let shown := Text.join ", " items
  if size ≤ items.length then return "[" ++ shown ++ "]"
  return "[ (" ++ (← Number.decimal (size - items.length)) ++ " items) ... " ++ shown ++ "]"

def memoryText (memory : Octets) : Text :=
  if memory.isEmpty then "" else ", memory=" ++ Hex.abbreviated Hex.defaultThreshold memory

def storagePair (e : Int × Int) : Except Fault Text := do
  return (← Number.decimal e.1) ++ ": " ++ (← Number.decimal e.2)

def storageText (storage : Table Int) : Except Fault Text := do
  let pairs ← storage.entries.mapM storagePair
  return if storage.isEmpty then "" else ", storage=" ++ Json.braced pairs

/-- A step on one line, at a depth of the calls. -/
def line (depth : Int) (s : Step) : Except Fault Text := do
  let dots ← Trace.indent depth
  let gas ← Hex.encodeQuantity s.gas
  let items ← s.stack.mapM Hex.encodeQuantity
  let stack ← stackText s.stackSize items
  let pc ← Number.decimal s.pc
  let storage ← storageText s.storage
  return dots ++ pc ++ ":" ++ s.mnemonic ++ ", gas=" ++ gas ++ ", stack=" ++ stack ++ memoryText s.memory ++ storage

def storageEntry (e : Int × Int) : Except Fault (Text × Json) := do
  return (← Hex.encodeQuantity e.1, .text (← Hex.encodeQuantity e.2))

def memoryFields (abbreviate : Bool) (memory : Octets) : Fields :=
  if memory.isEmpty then [] else [("memory", .text (Hex.encodeOctets abbreviate memory))]

def storageFields (storage : Table Int) : Except Fault Fields := do
  let entries ← storage.entries.mapM storageEntry
  return if entries.isEmpty then [] else [("storage", .object entries)]

def toJson (abbreviate : Bool) (s : Step) : Except Fault Json := do
  let stack ← s.stack.mapM Hex.encodeQuantity
  let storage ← storageFields s.storage
  return .object (Fields.concat [
    [("pc", .int s.pc), ("op", .int s.op), ("depth", .int s.depth), ("gas", .int s.gas),
      ("stackSize", .int s.stackSize), ("stack", .texts stack)],
    memoryFields abbreviate s.memory, storage])

/-- Storage read from a document; what says nothing is no storage. -/
def storageOf (j : Json) : Except Fault (Table Int) :=
  match j.given? with
  | none => .ok .empty
  | some j => j.fields >>= Hex.quantityMap

def ofJson [Limits] (j : Json) : Except Fault Step :=
  Fault.onMissing (.stepLacks · j) do
    let pc ← j.field "pc" >>= Json.toInt
    let op ← j.field "op" >>= Json.toInt
    let depth ← j.field "depth" >>= Json.toInt
    let gas ← Hex.quantityAt j "gas"
    let stackSize ← j.field "stackSize" >>= Json.toInt
    let stack ← (← j.field "stack" >>= Json.items).mapM Hex.quantity
    let memory ← j.fieldOr "memory" (.text "0x") >>= Hex.abbreviatedOctets
    let storage ← j.fieldOr "storage" .null >>= storageOf
    return ⟨pc, op, depth, gas, stackSize, stack, memory, storage⟩

end Step

end CallTrace
