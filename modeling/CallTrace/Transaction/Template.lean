import CallTrace.Transaction.Document

namespace CallTrace

/-- Which gas limit, data and value are picked. -/
structure Indexes where
  gas : Option Json
  data : Option Json
  value : Option Json

structure TransactionTemplate where
  base : Transaction
  gasLimits : List Int
  values : List Int
  datas : List Octets
  accessLists : Option (List AccessList)
deriving DecidableEq

namespace TransactionTemplate

/-- Whether a number lies at or above zero and below a count. -/
def isIndex (x : Number) (count : Nat) : Bool := Number.zero.isAtMost x && x.isBelow (.whole count)

/-- The fault of an index out of range tells the index, which must be one that can be written. -/
def outside (name key : Text) (count : Nat) (index : Json) : Except Fault α := do
  throw (.indexOutOfRange key (← index.writable) count name)

/-- The item at an index. A number with a fraction is no index, even one that lies in range. -/
def pickAt (name key : Text) (items : List α) (index : Json) : Except Fault α := do
  let x ← index.toNumber
  if !isIndex x items.length then outside name key items.length index
  else match x with
    | .whole n => (items[n.toNat]?).elim (outside name key items.length index) .ok
    | .real _ => throw .unsuited

/-- Picks an item; no index counts from the end. -/
def pick (name key : Text) (items : List α) (index : Option Json) : Except Fault α :=
  match index with
  | none => .error (.missingIndex key)
  | some index => if items.isEmpty then .error (.noChoices name) else pickAt name key items index

def pickAccessList (t : TransactionTemplate) (indexes : Indexes) : Except Fault (Option AccessList) :=
  match t.accessLists with
  | none => .ok t.base.accessList
  | some lists => some <$> pick "access_list" "data" lists indexes.data

def instantiate (t : TransactionTemplate) (indexes : Indexes) : Except Fault Transaction := do
  let gasLimit ← pick "gas_limit" "gas" t.gasLimits indexes.gas
  let value ← pick "value" "value" t.values indexes.value
  let data ← pick "data" "data" t.datas indexes.data
  let accessList ← t.pickAccessList indexes
  return { t.base with gasLimit, value, data, accessList }

def baseOf (kind : Fee.Kind) (j : Json) : Except Fault Transaction := do
  let sender ← Hex.quantityAt j "sender"
  let secretKey ← Hex.quantityAt j "secretKey"
  let recipient ← Transaction.recipientOf j
  let nonce ← Hex.quantityAt j "nonce"
  let fee ← Fee.ofJson kind j
  return ⟨sender, secretKey, recipient, nonce, 0, 0, [], none, Transaction.defaultChainId, fee⟩

def accessListsOf (j : Json) : Except Fault (Option (List AccessList)) := do
  if ← j.mentions "accessLists" then
    return some (← (← j.field "accessLists" >>= Json.items).mapM accessListOf)
  else return none

/-- Everything but the access lists. -/
def choicesOf (kind : Fee.Kind) (j : Json) : Except Fault TransactionTemplate := do
  let base ← baseOf kind j
  let gasLimits ← (← j.field "gasLimit" >>= Json.items).mapM Hex.quantity
  let values ← (← j.field "value" >>= Json.items).mapM Hex.quantity
  let datas ← (← j.field "data" >>= Json.items).mapM Hex.octets
  return ⟨base, gasLimits, values, datas, none⟩

def ofJson (j : Json) : Except Fault TransactionTemplate := do
  let kind ← Fee.Kind.ofJson j
  let template ← Fault.onMissing .templateLacks (choicesOf kind j)
  return { template with accessLists := ← accessListsOf j }

end TransactionTemplate

end CallTrace
