import CallTrace.Json.Order
import CallTrace.Transaction.Basic

namespace CallTrace

def accessOf (j : Json) : Except Fault Access := do
  let address ← Hex.quantityAt j "address"
  let keys ← (← j.field "storageKeys" >>= Json.items).mapM Hex.quantity
  return ⟨address, keys⟩

/-- An access list; one that says nothing is empty. -/
def accessListOf (j : Json) : Except Fault AccessList := do
  match j.given? with
  | none => return []
  | some j => (← j.items).mapM accessOf

def accessToJson (a : Access) : Except Fault Json := do
  let address ← Hex.encodeAddress a.address
  let keys ← a.storageKeys.mapM Hex.encodeWord32
  return .object [("address", .text address), ("storageKeys", .texts keys)]

inductive Fee.Kind where
  | legacy
  | dynamic
deriving DecidableEq

namespace Fee

/-- The keys of a value, in order. -/
def sortedKeys (j : Json) : Except Fault (List Json) := j.items >>= Json.sorted

def Kind.ofJson (j : Json) : Except Fault Kind := do
  if ← j.mentions "gasPrice" then return .legacy
  if !(← j.mentions "maxPriorityFeePerGas") then throw (.unpriced (← sortedKeys j))
  if !(← j.mentions "maxFeePerGas") then throw (.unpriced (← sortedKeys j))
  return .dynamic

def ofJson (kind : Kind) (j : Json) : Except Fault Fee :=
  match kind with
  | .legacy => return .legacy (← Hex.quantityAt j "gasPrice")
  | .dynamic =>
    return .dynamic (← Hex.quantityAt j "maxPriorityFeePerGas") (← Hex.quantityAt j "maxFeePerGas")

def toFields : Fee → Except Fault Fields
  | .legacy price => return [("gasPrice", .text (← Hex.encodeQuantity price))]
  | .dynamic tip limit => do
    let tip ← Hex.encodeQuantity tip
    let limit ← Hex.encodeQuantity limit
    return [("maxPriorityFeePerGas", .text tip), ("maxFeePerGas", .text limit)]

end Fee

namespace Transaction

/-- The recipient; a value that says nothing stands for none. -/
def recipientOf (j : Json) : Except Fault (Option Int) := do
  match (← j.fieldOr "to" (.text "")).given? with
  | none => return none
  | some address => return some (← Hex.quantity address)

/-- The data of a transaction, under either of its two names. -/
def dataOf (j : Json) : Except Fault Json := do
  let data ← j.fieldOr "data" .null
  match ← j.fieldOr "input" data with
  | .null => throw (.transactionLacks (.text "input"))
  | data => return data

def accessesOf (j : Json) : Except Fault (Option AccessList) := do
  if ← j.mentions "accessList" then return some (← j.field "accessList" >>= accessListOf)
  else return none

def readAs (kind : Fee.Kind) (j : Json) : Except Fault Transaction := do
  let data ← dataOf j
  let sender ← Hex.quantityAt j "sender"
  let secretKey ← Hex.quantityAt j "secretKey"
  let recipient ← recipientOf j
  let nonce ← Hex.quantityAt j "nonce"
  let gasLimit ← Hex.quantityAt j "gasLimit"
  let value ← Hex.quantityAt j "value"
  let data ← Hex.octets data
  let accessList ← accessesOf j
  let chainId ← j.fieldOr "chainId" (.int defaultChainId) >>= Hex.quantity
  let fee ← Fee.ofJson kind j
  return ⟨sender, secretKey, recipient, nonce, gasLimit, value, data, accessList, chainId, fee⟩

def ofJson (j : Json) : Except Fault Transaction := do
  let kind ← Fee.Kind.ofJson j
  Fault.onMissing .transactionLacks (readAs kind j)

/-- A field that is written if there is a value. -/
def optional (key : Text) (write : α → Except Fault Json) : Option α → Except Fault Fields
  | none => .ok []
  | some a => return [(key, ← write a)]

def accessListToJson (l : AccessList) : Except Fault Json := return .list (← l.mapM accessToJson)

/-- The number of the sort of transaction; the oldest sort has none. -/
def typeFields (tx : Transaction) : Fields :=
  match tx.fee, tx.accessList with
  | .dynamic .., _ => [("type", .text "0x2")]
  | .legacy _, some _ => [("type", .text "0x1")]
  | .legacy _, none => []

def toFields (tx : Transaction) : Except Fault Fields := do
  let chainId ← Hex.encodeQuantity tx.chainId
  let sender ← Hex.encodeAddress tx.sender
  let secretKey ← Hex.encodeWord32 tx.secretKey
  let recipient ← optional "to" (fun n => return .text (← Hex.encodeAddress n)) tx.recipient
  let gasLimit ← Hex.encodeQuantity tx.gasLimit
  let nonce ← Hex.encodeQuantity tx.nonce
  let value ← Hex.encodeQuantity tx.value
  let accessList ← optional "accessList" accessListToJson tx.accessList
  let fee ← tx.fee.toFields
  return Fields.concat [
    [("chainId", .text chainId), ("sender", .text sender), ("secretKey", .text secretKey)], recipient,
    [("gasLimit", .text gasLimit), ("nonce", .text nonce), ("value", .text value),
      ("input", .text (Hex.encode tx.data))],
    accessList, fee, tx.typeFields]

def toJson (tx : Transaction) : Except Fault Json := return .object (← tx.toFields)

end Transaction

end CallTrace
