import CallTrace.Hex.Fields

namespace CallTrace

/-- What the state holds at one address. -/
structure Account where
  balance : Int
  nonce : Int
  storage : Table Int
  code : Octets
deriving DecidableEq, Inhabited

namespace Account

/-- Storage read from a document. All values are read before the first key, so a bad value is found
before a bad key. -/
def storageOf (j : Json) : Except Fault (Table Int) := do
  let fields ← j.fields
  let values ← fields.mapM fun f => Hex.quantity f.2
  let keys ← fields.mapM fun f => Hex.decodeQuantity f.1
  return .ofList (keys.zip values)

def ofJson (j : Json) : Except Fault Account :=
  Fault.onMissing .accountLacks do
    let balance ← Hex.quantityAt j "balance"
    let nonce ← Hex.quantityAt j "nonce"
    let storage ← j.fieldOr "storage" (.object []) >>= storageOf
    let code ← Hex.octetsAt j "code"
    return ⟨balance, nonce, storage, code⟩

def storageEntry (e : Int × Int) : Except Fault (Text × Json) := do
  return (← Hex.encodeWord32 e.1, .text (← Hex.encodeWord32 e.2))

def toJson (a : Account) : Except Fault Json := do
  let balance ← Hex.encodeQuantity a.balance
  let nonce ← Hex.encodeQuantity a.nonce
  let storage ← a.storage.entries.mapM storageEntry
  return .object [("balance", .text balance), ("nonce", .text nonce), ("storage", .object storage),
    ("code", .text (Hex.encode a.code))]

end Account

end CallTrace
