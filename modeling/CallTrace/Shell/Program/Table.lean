import CallTrace.Shell.Condition
import CallTrace.Shell.Program.Excerpt
import CallTrace.Shell.Program.Letters
import CallTrace.Shell.Program.Lines
import CallTrace.Shell.Program.Places

namespace CallTrace.Shell

namespace Program

/-- A length of time in millionths of a second; nothing for one without end. -/
def duration? (t : Text) : Option (Option Nat) :=
  match Real.read? t with
  | some (x, rest) =>
    let unit? : Option Nat := match rest with
      | [] => some 1
      | [c] => [(CodePoint.char 's', 1), (.char 'm', 60), (.char 'h', 3600), (.char 'd', 86400)].lookup c
      | _ => none
    match x, unit? with
    | .ratio false num den, some unit => some (some (num * unit * 1000000 / den))
    | .ratio true 0 _, some _ => some (some 0)
    | .infinite false, some _ => some none
    | _, _ => none
  | none => none

def sleep : Program := fun args => withOptions [] [] args (fun o => do
  if o.operands.isEmpty then return ← misuse "missing operand" 1
  let mut isWrong := false
  for t in o.operands do
    if (duration? t).isNone then
      complain ("invalid time interval " ++ Quoting.inMessage t)
      isWrong := true
  if isWrong then
    tellHint
    return 1
  for t in o.operands do
    match duration? t with
    | some (some micros) => Action.spend micros
    | _ => throw .stuck
  return 0) 1

def condition : Program := fun args => do
  let fs ← Action.files
  match Condition.decideWords (fun path => (Kind.ofPath fs path).toOption) args with
  | .ok b => return if b then 0 else 1
  | .error t =>
    complain t
    return 2

/-- The names and values that programs find, as lines. -/
def environment : Action Text :=
  return Text.concat ((Action.environment (← get)).map fun (name, t) => name ++ "=" ++ t ++ "\n")

def printenv : Program := fun args => do
  if args.isEmpty then write (← environment)
  let values := Action.environment (← get)
  for name in args do
    match values.lookup name with
    | some t => write (t ++ "\n")
    | none => pure ⟨⟩
  return if args.all fun name => (values.lookup name).isSome then 0 else 1

/-- The programs by name, without those that run others. -/
def all : List (Text × Program) := [
  ("basename", basename), ("cat", cat), ("cut", cut), ("dirname", dirname), ("echo", echo),
  ("false", fun _ => return 1), ("grep", grep), ("head", head), ("ls", ls), ("mkdir", mkdir),
  ("printenv", printenv), ("printf", printf), ("rm", rm), ("seq", seq), ("sleep", sleep), ("sort", sort), ("tail", tail),
  ("tee", tee), ("test", condition), ("[", fun args => condition args.dropLast), ("touch", touch),
  ("tr", tr), ("true", fun _ => return 0), ("uniq", uniq), ("wc", wc), ("yes", yes)]

def run (name : Text) (args : List Text) : Action Nat :=
  match Text.lookup name all with
  | some program => program args
  | none => return 0

end Program

end CallTrace.Shell
