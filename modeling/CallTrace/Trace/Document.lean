import CallTrace.Trace.Basic
import CallTrace.Outcome.Reported

namespace CallTrace.Trace

def frame (steps : List Json) (o : Outcome) (bs : Octets) : Json := .object [
  ("steps", .list steps), ("outcome", .text o.name),
  ("data", .text (Hex.abbreviated Hex.defaultThreshold bs))]

/-- The parts of a trace, each as JSON. -/
def partsToJson (abbreviate : Bool) : Trace → Except Fault (List Json)
  | .ended .. => .ok []
  | .step s rest => do
    let step ← s.toJson abbreviate
    return step :: (← rest.partsToJson abbreviate)
  | .call inner rest => do
    let parts ← inner.partsToJson abbreviate
    return frame parts inner.outcome inner.data :: (← rest.partsToJson abbreviate)

/-- Frames that the writing of a call within another one takes. -/
def writerFrames : Nat := 3

def toJson [Limits] (abbreviate : Bool) (t : Trace) : Except Fault Json := do
  if !Limits.admitsDepth writerFrames t.nesting then throw .tooDeep
  return frame (← t.partsToJson abbreviate) t.outcome t.data

def Element.toJson [Limits] (abbreviate : Bool) : Element → Except Fault Json
  | .step s => s.toJson abbreviate
  | .call t => t.toJson abbreviate

/-- The end of a trace whose parts are read. -/
def close [Limits] (fields : Fields) (elements : List Element) : Except Fault Trace := do
  let outcome ← (Json.object fields).field "outcome" >>= Outcome.ofJson
  let data ← (Json.object fields).fieldOr "data" (.text "0x") >>= Hex.abbreviatedOctets
  return ofElements elements outcome data

/-- A value other than an object where a part of a trace should stand. -/
def misplaced (j : Json) : Except Fault Element := do
  if ← j.mentions "pc" then throw .unsuited
  if ← j.mentions "steps" then throw .unsuited
  throw (.unknownElement j)

/-- Frames that the reading of a call within another one takes. -/
def readerFrames : Nat := 4

mutual

/-- A part of a trace at a depth of calls: what has a program counter is a step, what has steps is a
call. -/
def elementOf [Limits] (depth : Nat) : Json → Except Fault Element
  | .object fields =>
    if Fields.has fields "pc" then Element.step <$> Step.ofJson (.object fields)
    else if Fields.has fields "steps" then
      Element.call <$> Fault.onMissing .traceLacks (elementsUnder (depth + 1) fields >>= close fields)
    else .error (.unknownElement (.object fields))
  | j => misplaced j

/-- The elements under the key `steps`. -/
def elementsUnder [Limits] (depth : Nat) : List (Text × Json) → Except Fault (List Element)
  | [] => .error (.missingKey (.text "steps"))
  | (key, value) :: fields => if key = "steps" then elementsOf depth value else elementsUnder depth fields

def elementsOf [Limits] (depth : Nat) : Json → Except Fault (List Element)
  | .list items =>
    if Limits.admitsDepth readerFrames depth then elementsOfItems depth items else .error .tooDeep
  | j => j.items >>= List.mapM misplaced

def elementsOfItems [Limits] (depth : Nat) : List Json → Except Fault (List Element)
  | [] => .ok []
  | j :: js => do
    let e ← elementOf depth j
    return e :: (← elementsOfItems depth js)

end

/-- A part of a trace that stands alone. -/
def Element.ofJson [Limits] (j : Json) : Except Fault Element := elementOf 0 j

def ofJson [Limits] : Json → Except Fault Trace
  | .object fields => Fault.onMissing .traceLacks (elementsUnder 0 fields >>= close fields)
  | _ => .error .unsuited

end CallTrace.Trace
