import CallTrace.Number.Decimal
import CallTrace.WorldState
import CallTrace.Text.Quoted

namespace CallTrace

/-- An address that a transaction announces, with the storage slots it announces there. -/
structure Access where
  address : Int
  storageKeys : List Int
deriving DecidableEq, Inhabited

abbrev AccessList := List Access

/-- What a transaction offers for its gas: one price, or a tip and a limit. -/
inductive Fee where
  | legacy (gasPrice : Int)
  | dynamic (maxPriorityFee maxFee : Int)
deriving DecidableEq, Inhabited

/-- Items between round brackets; one alone keeps its comma. -/
def grouped : List Text → Text
  | [item] => "(" ++ item ++ ",)"
  | items => "(" ++ Text.join ", " items ++ ")"

def Access.display (a : Access) : Except Fault Text := do
  return "Access(address=" ++ (← Number.decimal a.address) ++ ", storage_keys=" ++
    grouped (← a.storageKeys.mapM Number.decimal) ++ ")"

def Fee.display : Fee → Except Fault (List Text)
  | .legacy price => do return ["gas_price=" ++ (← Number.decimal price)]
  | .dynamic tip limit => do
    return ["max_priority_fee_per_gas=" ++ (← Number.decimal tip),
      "max_fee_per_gas=" ++ (← Number.decimal limit)]

def Fee.numbers : Fee → List Int
  | .legacy price => [price]
  | .dynamic tip limit => [tip, limit]

def Access.numbers (a : Access) : List Int := a.address :: a.storageKeys

def optionText (show? : α → Except Fault Text) : Option α → Except Fault Text
  | none => .ok "None"
  | some a => show? a

/-- A transaction before it is signed. One without a recipient creates a contract. -/
structure Transaction where
  sender : Int
  secretKey : Int
  recipient : Option Int
  nonce : Int
  gasLimit : Int
  value : Int
  data : Octets
  accessList : Option AccessList
  chainId : Int
  fee : Fee
deriving DecidableEq, Inhabited

namespace Transaction

def defaultChainId : Int := 1

def isCreation (tx : Transaction) : Bool := tx.recipient.isNone

/-- The code that a transaction runs: its data if it creates a contract, else that of the recipient. -/
def code (tx : Transaction) (state : WorldState) : Octets :=
  match tx.recipient with
  | none => tx.data
  | some address => state.codeAt address

/-- A new value for a field. -/
inductive Change where
  | sender (n : Int)
  | secretKey (n : Int)
  | recipient (n : Option Int)
  | nonce (n : Int)
  | gasLimit (n : Int)
  | value (n : Int)
  | data (bs : Octets)
  | accessList (l : Option AccessList)
  | chainId (n : Int)
  | gasPrice (n : Int)
  | maxPriorityFee (n : Int)
  | maxFee (n : Int)
  /-- A value for a field that no transaction has. -/
  | unknown (name : Text)

def Change.name : Change → Text
  | .sender _ => "sender"
  | .secretKey _ => "secret_key"
  | .recipient _ => "to"
  | .nonce _ => "nonce"
  | .gasLimit _ => "gas_limit"
  | .value _ => "value"
  | .data _ => "data"
  | .accessList _ => "access_list"
  | .chainId _ => "chain_id"
  | .gasPrice _ => "gas_price"
  | .maxPriorityFee _ => "max_priority_fee_per_gas"
  | .maxFee _ => "max_fee_per_gas"
  | .unknown name => name

/-- The transaction with the change made; `none` if it has no such field. -/
def change? (tx : Transaction) (c : Change) : Option Transaction :=
  match c, tx.fee with
  | .sender n, _ => some { tx with sender := n }
  | .secretKey n, _ => some { tx with secretKey := n }
  | .recipient n, _ => some { tx with recipient := n }
  | .nonce n, _ => some { tx with nonce := n }
  | .gasLimit n, _ => some { tx with gasLimit := n }
  | .value n, _ => some { tx with value := n }
  | .data bs, _ => some { tx with data := bs }
  | .accessList l, _ => some { tx with accessList := l }
  | .chainId n, _ => some { tx with chainId := n }
  | .gasPrice n, .legacy _ => some { tx with fee := .legacy n }
  | .maxPriorityFee n, .dynamic _ m => some { tx with fee := .dynamic n m }
  | .maxFee n, .dynamic m _ => some { tx with fee := .dynamic m n }
  | _, _ => none

def isForeign (tx : Transaction) (c : Change) : Bool := (tx.change? c).isNone

/-- A copy with changes made; all changes to fields it does not have are refused at once. -/
def copy (tx : Transaction) (changes : List Change) : Except Fault Transaction :=
  match (changes.filter tx.isForeign).map Change.name with
  | [] => .ok (changes.foldl (fun t c => (t.change? c).getD t) tx)
  | names => .error (.unknownFields (Text.sorted names))

def typeName (tx : Transaction) : Text :=
  match tx.fee with
  | .legacy _ => "LegacyTransaction"
  | .dynamic .. => "DynamicFeeTransaction"

/-- All integers in a transaction. -/
def numbers (tx : Transaction) : List Int :=
  [tx.sender, tx.secretKey, tx.nonce, tx.gasLimit, tx.value, tx.chainId] ++ tx.recipient.toList ++
    (tx.accessList.getD []).flatMap Access.numbers ++ tx.fee.numbers

/-- A transaction as messages show it, if its integers can be written. -/
def display (tx : Transaction) : Except Fault Text := do
  let shown := ["sender=" ++ (← Number.decimal tx.sender), "secret_key=" ++ (← Number.decimal tx.secretKey),
    "to=" ++ (← optionText Number.decimal tx.recipient), "nonce=" ++ (← Number.decimal tx.nonce),
    "gas_limit=" ++ (← Number.decimal tx.gasLimit), "value=" ++ (← Number.decimal tx.value),
    "data=" ++ Text.quotedOctets tx.data,
    "access_list=" ++ (← optionText (fun l => do return grouped (← l.mapM Access.display)) tx.accessList),
    "chain_id=" ++ (← Number.decimal tx.chainId)]
  return tx.typeName ++ "(" ++ Text.join ", " (shown ++ (← tx.fee.display)) ++ ")"

end Transaction

end CallTrace
