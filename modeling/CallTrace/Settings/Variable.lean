import CallTrace.Json.Access
import CallTrace.Text.Utf

namespace CallTrace

abbrev Variables := List (Text × Text)

namespace Variables

/-- The octets of a text that the system is to keep. -/
def octets (t : Text) : Except Fault Octets := (t.fileOctets?).elim (.error .unencodable) .ok

/-- A variable as the system takes it. -/
def variableOf (f : Text × Json) : Except Fault (Text × Text) := do
  let name ← octets f.1
  match f.2 with
  | .text value =>
    let content ← octets value
    if name.contains 0 || name.contains 0x3D then throw .zeroInName
    if content.contains 0 then throw .zeroInName
    if name.isEmpty then throw .emptyName
    return (f.1, value)
  | _ => throw .unsuited

/-- The variables that an object sets. -/
def ofJson : Json → Except Fault Variables
  | .object fields => fields.mapM variableOf
  | j => if j.isGiven then .error .unsuited else .ok []

def mark : Text := "EVMTRACE_"

/-- The text of a variable, or the default. -/
def value (vars : Variables) (name : Text) (default : Option Json) : Except Fault Json :=
  match (mark ++ name).lookup vars, default with
  | some s, _ => .ok (.text s)
  | none, some j => .ok j
  | none, none => .error (.unsetVariable (mark ++ name))

/-- Says which variable it is that holds no number. -/
def onUnreadable (fault : Fault) : Except Fault α → Except Fault α
  | .error .unreadableNumber => .error fault
  | r => r

def integer (vars : Variables) (name : Text) (default : Option Json) : Except Fault Int := do
  let j ← vars.value name default
  onUnreadable (.badIntegerSetting (mark ++ name) j) j.toInt

def real (vars : Variables) (name : Text) (default : Option Json) : Except Fault Binary64 := do
  let j ← vars.value name default
  onUnreadable (.badNumberSetting (mark ++ name) j) j.toReal

def affirmative : List Text := ["1", "True", "true", "yes"]

/-- Whether a value says yes; a truth value says what it is. -/
def affirms : Json → Except Fault Bool
  | .bool b => .ok b
  | .text s => .ok (s.isOneOf affirmative)
  | .list _ | .object _ => .error .unsuited
  | _ => .ok false

def flag (vars : Variables) (name : Text) (default : Option Json) : Except Fault Bool :=
  vars.value name default >>= affirms

def text (vars : Variables) (name : Text) (default : Option Json) : Except Fault Text := do
  return (← vars.value name default).plain

end Variables

end CallTrace
