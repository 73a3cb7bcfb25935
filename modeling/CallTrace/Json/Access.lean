import CallTrace.Fault
import CallTrace.Number.Numeral
import CallTrace.Text.Lowered

namespace CallTrace.Json

/-- Whether a name stands in a value: as a key of an object, as an item of a list, or as a part of a
text. -/
def mentions (j : Json) (key : Text) : Except Fault Bool :=
  match j with
  | .object fields => .ok (Fields.has fields key)
  | .list items => .ok (items.any (·.same (.text key)))
  | .text s => .ok (Text.holds key s)
  | _ => .error .unsuited

def field (j : Json) (key : Text) : Except Fault Json :=
  match j with
  | .object fields =>
    match Fields.value? fields key with
    | some value => .ok value
    | none => .error (.missingKey (.text key))
  | _ => .error .unsuited

def fields : Json → Except Fault Fields
  | .object fields => .ok fields
  | _ => .error .noFields

/-- A field of an object, if it is there. -/
def field? (j : Json) (key : Text) : Except Fault (Option Json) := return (← j.fields).value? key

def fieldOr (j : Json) (key : Text) (default : Json) : Except Fault Json :=
  return (← j.field? key).getD default

/-- The items of a list, the keys of an object, or the code points of a text. -/
def items : Json → Except Fault (List Json)
  | .list items => .ok items
  | .object fields => .ok (fields.map (.text ·.1))
  | .text s => .ok (s.map fun c => .text [c])
  | _ => .error .unsuited

/-- A number cut to its integer part, or the integer that a text spells. -/
def toInt : Json → Except Fault Int
  | .bool b => .ok (if b then 1 else 0)
  | .int n => .ok n
  | .real .nan => .error .unreadableNumber
  | .real x => (x.truncate?).elim (.error .infiniteNumber) .ok
  | .text s => (Number.integer? s).elim (.error .unreadableNumber) .ok
  | _ => .error .unsuited

/-- The number that a value counts as, with a fraction if need be. -/
def toReal : Json → Except Fault Binary64
  | .bool b => .ok (.ofDecimal false (if b then 1 else 0) 0)
  | .int n => (Binary64.ofInt? n).elim (.error .infiniteNumber) .ok
  | .real x => .ok x
  | .text s => (Number.real? s).elim (.error .unreadableNumber) .ok
  | _ => .error .unsuited

/-- A value that is a number. -/
def toNumber (j : Json) : Except Fault Number := (j.number?).elim (.error .unsuited) .ok

/-- A document as text. An integer of too many digits has none. -/
def writable (j : Json) : Except Fault Json := if j.isLengthy then .error .unwritableNumber else .ok j

theorem field_object {fields : Fields} {key : Text} {value : Json}
    (h : fields.value? key = some value) : (Json.object fields).field key = .ok value := by
  simp [field, h]

end CallTrace.Json
