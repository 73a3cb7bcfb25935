import CallTrace.Hex.Abbreviated
import CallTrace.Json.Access
import CallTrace.Table

namespace CallTrace.Hex

def quantityAt (j : Json) (key : Text) : Except Fault Int := j.field key >>= quantity

def octetsAt (j : Json) (key : Text) : Except Fault Octets := j.field key >>= octets

/-- A quantity that may be left out. -/
def quantityAt? (j : Json) (key : Text) : Except Fault (Option Int) := do
  if ← j.mentions key then return some (← quantityAt j key) else return none

/-- A map of quantities to quantities; of two spellings of a key the later one counts. -/
def quantityMap (fields : Fields) : Except Fault (Table Int) := do
  let entries ← fields.mapM fun (key, value) => do
    return (← decodeQuantity key, ← quantity value)
  return .ofList entries

end CallTrace.Hex
