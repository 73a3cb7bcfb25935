import CallTrace.Record.Basic
import CallTrace.Json.Reader
import CallTrace.Text.Blank

namespace CallTrace

/-- A line of a log: text, octets in some encoding, or a value decoded already. -/
inductive Line where
  | text (s : Text)
  | octets (bs : Octets)
  | value (j : Json)

namespace Line

def decoded (n : Nat) (r : Except Json.ReadFault Json) : Except Fault (Option Json) :=
  match r with
  | .ok j => .ok (some j)
  | .error .tooDeep => .error .tooDeep
  | .error _ => .error (.lineNotJson n)

/-- The value on a line; `none` for a blank line. -/
def read? (n : Nat) : Line → Except Fault (Option Json)
  | .text s => if Text.allBlank s then .ok none else decoded n (Json.read s)
  | .octets bs => if bs.all Text.isBlankOctet then .ok none else decoded n (Json.readOctets bs)
  | .value (.object fields) => .ok (some (.object fields))
  | .value _ => .error .noFields

end Line

namespace Record

def intField (n : Nat) (fields : Fields) (key : Text) : Except Fault Int :=
  match fields.value? key with
  | none => .error (.stepWithout n key (.object fields))
  | some (.int i) => .ok i
  | some j => .error (.stepBadField n key j)

/-- The gas, a number or digits that are not looked at yet. -/
def gasField (n : Nat) (fields : Fields) : Except Fault Json :=
  match fields.value? "gas" with
  | none => .error (.stepWithout n "gas" (.object fields))
  | some (.int i) => .ok (.int i)
  | some (.text s) => .ok (.text s)
  | some j => .error (.stepBadField n "gas" j)

def stackField (n : Nat) (fields : Fields) : Except Fault (List Json) :=
  match (fields.value? "stack").bind Json.given? with
  | none => .ok []
  | some (.list items) => .ok items
  | some _ => .error (.stepBadStack n (.object fields))

def given? (fields : Fields) (key : Text) : Option Json := (fields.value? key).bind Json.given?

def stepOf (n : Nat) (fields : Fields) : Except Fault StepRecord := do
  let pc ← intField n fields "pc"
  let op ← intField n fields "op"
  let depth ← intField n fields "depth"
  let gas ← gasField n fields
  if depth < 1 then throw (.stepBadDepth n depth)
  let stack ← stackField n fields
  return ⟨pc, op, depth.toNat, gas, stack, given? fields "memory", given? fields "storage",
    given? fields "error", given? fields "output", fields⟩

/-- A record by its fields: what has a program counter is a step, what has only an output a summary. -/
def ofJson (n : Nat) : Json → Except Fault Record
  | .object fields =>
    if Fields.has fields "pc" then .step <$> stepOf n fields
    else if Fields.has fields "output" then
      .ok (.summary ⟨given? fields "output", given? fields "error", fields⟩)
    else .error (.lineNotRecord n (.object fields))
  | j => .error (.lineNotObject n j)

def ofLine? (n : Nat) (line : Line) : Except Fault (Option Record) := do
  match ← line.read? n with
  | none => return none
  | some j => return some (← ofJson n j)

/-- The records of lines that start at a number. -/
def ofLinesFrom (n : Nat) : List Line → Except Fault (List Record)
  | [] => .ok []
  | line :: lines => do
    let r ← ofLine? n line
    return r.toList ++ (← ofLinesFrom (n + 1) lines)

def ofLines (lines : List Line) : Except Fault (List Record) := ofLinesFrom 1 lines

end Record

end CallTrace
