import CallTrace.Settings.Layer
import CallTrace.Settings.Variable

namespace CallTrace

/-- Settings of which some are left open. -/
structure Preferences where
  binary : Option Json := none
  timeout : Option Json := none
  stackSize : Option Json := none
  keepWorkdir : Option Json := none

namespace Preferences

def keys : List Text := ["binary", "timeout", "stack_size", "keep_workdir"]

/-- A preference among fields; null leaves it open. -/
def preference (fields : Fields) (key : Text) : Option Json := (fields.value? key).bind Json.present?

def ofFields (fields : Fields) : Preferences :=
  ⟨preference fields "binary", preference fields "timeout", preference fields "stack_size",
    preference fields "keep_workdir"⟩

/-- The preferences that an object gives, which says nothing else. -/
def ofJson : Json → Except Fault Preferences
  | .object fields => if fields.all (·.1.isOneOf keys) then .ok (ofFields fields) else .error .unsuited
  | j => if j.isGiven then .error .unsuited else .ok {}

end Preferences

structure Settings where
  name : Text
  binary : Json
  timeout : Json
  stackSize : Json
  keepWorkdir : Json
  /-- The parts that the layers set. -/
  parts : Fields := []

namespace Settings

def defaultBinary : Text := "evm"

def defaultTimeout : Int := 10

def defaultStackSize : Int := 10

/-- The first of the given value, the configured one and that of the environment. -/
def first (given configured : Option Json) (environment : Json) : Json :=
  (given <|> configured).getD environment

/-- The abilities without which an adapter cannot be had at all. -/
def essentials : List Text := ["__init__", "__new__", "__getattribute__", "__setattr__"]

/-- Every variable is read, even one whose value is not needed, so a bad one is always found. -/
def choose (given : Preferences) (layer : Layer) (vars : Variables) : Except Fault Settings := do
  let configured := Preferences.ofFields layer.set
  let binary ← vars.text "GETH_BINARY" (some (.text defaultBinary))
  let timeout ← vars.real "TIMEOUT" (some (.int defaultTimeout))
  let stackSize ← vars.integer "STACK_SIZE" (some (.int defaultStackSize))
  let keepWorkdir ← vars.flag "KEEP_WORKDIR" (some (.bool false))
  return {
    name := layer.name
    binary := first given.binary configured.binary (.text binary)
    timeout := first given.timeout configured.timeout (.real timeout)
    stackSize := first given.stackSize configured.stackSize (.int stackSize)
    keepWorkdir := first given.keepWorkdir configured.keepWorkdir (.bool keepWorkdir)
    parts := layer.set }

/-- Whether the limits make sense: a timeout above zero, a stack size that is not below. -/
def check (s : Settings) : Except Fault Unit := do
  if (← s.timeout.toNumber).isAtMost .zero then throw (.badTimeout s.timeout)
  if (← s.stackSize.toNumber).isBelow .zero then throw (.badStackSize s.stackSize)

def resolve (given : Preferences) (layer : Layer) (vars : Variables) : Except Fault Settings := do
  if essentials.any layer.sets then throw .unsuited
  let s ← choose given layer vars
  s.check
  return s

/-- The adapter can do something unless a layer has set that part of it. -/
def need (s : Settings) (part : Text) (fault : Fault) : Except Fault Unit :=
  if s.parts.has part then .error fault else .ok ()

def display (s : Settings) : Except Fault Text := do
  s.need "__repr__" .unsuited
  return s.name ++ "(binary=" ++ s.binary.display ++ ", timeout=" ++ s.timeout.plain ++ ", stack_size=" ++
    s.stackSize.plain ++ ")"

end Settings

end CallTrace
