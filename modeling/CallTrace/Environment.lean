import CallTrace.Hex.Fields
import CallTrace.Number.Decimal

namespace CallTrace

structure Environment where
  coinbase : Int
  gasLimit : Int
  number : Int
  timestamp : Int
  difficulty : Option Int
  random : Option Int
  baseFee : Option Int
  previousHash : Option Int
  blockHashes : Table Int
  /-- Fields that mean nothing here and are kept as they are. -/
  extra : Fields

namespace Environment

def requiredKeys : List Text :=
  ["currentCoinbase", "currentGasLimit", "currentNumber", "currentTimestamp"]

def knownKeys : List Text :=
  requiredKeys ++
    (["currentDifficulty", "currentRandom", "currentBaseFee", "previousHash", "blockHashes"] : List Text)

def blockHash (f : Text × Json) : Except Fault (Int × Int) := do
  return (← (Json.text f.1).toInt, ← Hex.quantity f.2)

def isExtra (f : Text × Json) : Bool := !f.1.isOneOf knownKeys

def ofJson (j : Json) : Except Fault Environment := do
  let missing ← requiredKeys.filterM fun key => return !(← j.mentions key)
  if !missing.isEmpty then throw (.environmentLacks missing)
  let coinbase ← Hex.quantityAt j "currentCoinbase"
  let gasLimit ← Hex.quantityAt j "currentGasLimit"
  let number ← Hex.quantityAt j "currentNumber"
  let timestamp ← Hex.quantityAt j "currentTimestamp"
  let difficulty ← Hex.quantityAt? j "currentDifficulty"
  let random ← Hex.quantityAt? j "currentRandom"
  let baseFee ← Hex.quantityAt? j "currentBaseFee"
  let previousHash ← Hex.quantityAt? j "previousHash"
  let hashes ← j.fieldOr "blockHashes" (.object []) >>= Json.fields
  let blockHashes ← hashes.mapM blockHash
  let extra := (← j.fields).filter isExtra
  return ⟨coinbase, gasLimit, number, timestamp, difficulty, random, baseFee, previousHash,
    .ofList blockHashes, extra⟩

/-- A field that is written if there is a value. -/
def optional (key : Text) (encode : Int → Except Fault Text) : Option Int → Except Fault Fields
  | none => .ok []
  | some n => do return [(key, .text (← encode n))]

def hashEntry (e : Int × Int) : Except Fault (Text × Json) := do
  return (Text.ofInt e.1, .text (← Hex.encodeWord32 e.2))

def hashFields (e : Environment) : Except Fault Fields := do
  let hashes ← e.blockHashes.entries.mapM hashEntry
  return if hashes.isEmpty then [] else [("blockHashes", .object hashes)]

def toFields (e : Environment) : Except Fault Fields := do
  let coinbase ← optional "currentCoinbase" Hex.encodeAddress e.coinbase
  let gasLimit ← optional "currentGasLimit" Hex.encodeQuantity e.gasLimit
  let number ← optional "currentNumber" Hex.encodeQuantity e.number
  let timestamp ← optional "currentTimestamp" Hex.encodeQuantity e.timestamp
  let difficulty ← optional "currentDifficulty" Hex.encodeQuantity e.difficulty
  let random ← optional "currentRandom" Hex.encodeWord32 e.random
  let baseFee ← optional "currentBaseFee" Hex.encodeQuantity e.baseFee
  let previousHash ← optional "previousHash" Hex.encodeWord32 e.previousHash
  let hashes ← hashFields e
  return coinbase ++ gasLimit ++ number ++ timestamp ++ difficulty ++ random ++ baseFee ++
    previousHash ++ hashes ++ e.extra

def toJson (e : Environment) : Except Fault Json := do return .object (← e.toFields)

/-- Adds the hash of the block before, for a tool that looks for it among the block hashes. -/
def withParentHash (e : Environment) (fields : Fields) : Except Fault Fields :=
  match e.previousHash with
  | some hash =>
    if 0 < e.number then do
      let hashes ← match fields.value? "blockHashes" with
        | some j => j.fields
        | none => .ok []
      let parent ← Number.decimal (e.number - 1)
      let hash ← Hex.encodeWord32 hash
      return fields.put "blockHashes" (.object (hashes.putNew parent (.text hash)))
    else .ok fields
  | none => .ok fields

/-- The root of the beacon chain goes by another name there. -/
def withBeaconRoot (fields : Fields) : Fields :=
  match fields.value? "currentBeaconRoot" with
  | some root => fields.putNew "parentBeaconBlockRoot" root
  | none => fields

/-- The environment as the external tool takes it. -/
def toToolJson (e : Environment) : Except Fault Json := do
  return .object (withBeaconRoot (← e.withParentHash (← e.toFields)))

/-- Equality as values. -/
def same (a b : Environment) : Bool :=
  a.coinbase = b.coinbase && a.gasLimit = b.gasLimit && a.number = b.number &&
    a.timestamp = b.timestamp && a.difficulty = b.difficulty && a.random = b.random &&
    a.baseFee = b.baseFee && a.previousHash = b.previousHash && a.blockHashes = b.blockHashes &&
    (Json.object a.extra).same (.object b.extra)

end Environment

end CallTrace
