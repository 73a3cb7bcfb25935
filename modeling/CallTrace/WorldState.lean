import CallTrace.Account

namespace CallTrace

/-- The accounts by address. -/
abbrev WorldState := Table Account

namespace WorldState

def entryOf (f : Text × Json) : Except Fault (Int × Account) := do
  return (← Hex.decodeQuantity f.1, ← Account.ofJson f.2)

def ofJson (j : Json) : Except Fault WorldState := do
  return .ofList (← (← j.fields).mapM entryOf)

def entryToJson (e : Int × Account) : Except Fault (Text × Json) := do
  return (← Hex.encodeAddress e.1, ← e.2.toJson)

def toJson (state : WorldState) : Except Fault Json := do
  return .object (← state.entries.mapM entryToJson)

def display (state : WorldState) : Text := "WorldState(" ++ Text.ofNat state.size ++ " accounts)"

/-- The code at an address, none where there is no account. -/
def codeAt (state : WorldState) (address : Int) : Octets :=
  ((state.find? address).map (·.code)).getD []

end WorldState

end CallTrace
