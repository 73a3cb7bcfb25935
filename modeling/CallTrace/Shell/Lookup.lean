import CallTrace.Shell.Builtin.Table
import CallTrace.Shell.Token

namespace CallTrace.Shell.Lookup

open Shell.Action

/-- The places where programs are looked for. -/
def programPath? (name : Text) : Action (Option Text) := do
  if name.contains (CodePoint.char '/') then return some name
  let path := (← value? "PATH").getD []
  let fs ← files
  return (path.split ':').findSome? fun directory =>
    let candidate := Path.join directory name
    if (Kind.ofPath fs candidate).toOption = some .program then some candidate else none

/-- Tells what a shell would run for a name. -/
def describe (name : Text) : Action (Text × Nat) := do
  let s ← get
  if name.isOneOf Token.keywords then return (name ++ " is a shell keyword\n", 0)
  if name.isOneOf Builtin.specials then return (name ++ " is a special shell builtin\n", 0)
  if (Text.lookup name s.functions).isSome then return (name ++ " is a shell function\n", 0)
  if Builtin.isBuiltin name then return (name ++ " is a shell builtin\n", 0)
  match ← programPath? name with
  | some path =>
    if (← kind? path).isSome then return (name ++ " is " ++ path ++ "\n", 0)
    return (name ++ ": not found\n", 127)
  | none => return (name ++ ": not found\n", 127)

/-- The short form of that. -/
def describeBriefly (name : Text) : Action (Text × Nat) := do
  let s ← get
  if name.isOneOf Token.keywords || Builtin.isBuiltin name || (Text.lookup name s.functions).isSome then
    return (name ++ "\n", 0)
  match ← programPath? name with
  | some path => if (← kind? path).isSome then return (path ++ "\n", 0) else return ([], 127)
  | none => return ([], 127)

end CallTrace.Shell.Lookup
