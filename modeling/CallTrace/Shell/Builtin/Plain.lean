import CallTrace.Shell.Builtin.Basic
import CallTrace.Shell.Condition
import CallTrace.Shell.Printf

namespace CallTrace.Shell

namespace Builtin

open Shell.Action

def echo : Builtin := fun args => do
  let isBare := args.head? = some (Text.ofString "-n")
  let (line, ending) := Escapes.inside.apply 0 (Text.join " " (if isBare then args.drop 1 else args))
  write (if isBare || ending ≠ .whole then line else line ++ "\n")

def printf : Builtin := fun args => do
  let (_, args) ← options [] [] args
  match args with
  | [] => abort "usage: printf format [arg ...]"
  | format :: args =>
    let (pieces, status) := Printf.run .inside format args
    for (_, t) in pieces.filter (·.1 = 2) do
      complain t
    let written ← write (Text.concat ((pieces.filter (·.1 = 1)).map (·.2)))
    if status = 2 then throw .failed
    return max status written

def test : Builtin := fun args => do
  let fs ← files
  match Condition.decideWords (fun path => (Kind.ofPath fs path).toOption) args with
  | .ok b => return if b then 0 else 1
  | .error t => abort t

def bracket : Builtin := fun args =>
  if args.getLast? = some (Text.ofString "]") then test args.dropLast else abort "missing ]"

def pathOf (p : Place) : Text := .char '/' :: Path.ofNames p

/-- The place of the directory that a path leads to, if there is one. -/
def directory? (path : Text) : Action (Option Place) := do
  let fs ← files
  match Kind.ofPath fs path, fs.place path with
  | .ok .directory, .ok p => return some p
  | _, _ => return none

def cd : Builtin := fun args => do
  let (_, args) ← options "LP" [] args
  let (path, isShown) ← match args with
    | [] => pure ((← value? "HOME").getD [], false)
    | path :: _ => if path = "-" then pure ((← value? "OLDPWD").getD [], true) else pure (path, false)
  if path.isEmpty then return ← if isShown then write (pathOf (← get).here ++ "\n") else pure 0
  match ← directory? path with
  | none => abort ("can't cd to " ++ path)
  | some p =>
    assign "OLDPWD" (pathOf (← get).here)
    modify fun s => { s with here := p }
    assign "PWD" (pathOf p)
    if isShown then write (pathOf p ++ "\n") else return 0

def pwd : Builtin := fun args => do
  let _ ← options "LP" [] args
  write (pathOf (← get).here ++ "\n")

def exit : Builtin := fun args => do
  match args with
  | [] => throw (.exit (← get).status)
  | t :: _ => throw (.exit (← number t))

def back : Builtin := fun args => do
  match args with
  | [] => pure ⟨⟩
  | t :: _ => setStatus (← number t)
  throw .back

def leave (goesOn : Bool) : Builtin := fun args => do
  let n ← match args with
    | [] => pure 1
    | t :: _ => number t
  if n = 0 then abort ("Illegal number: " ++ args.headD [])
  let loops := (← get).loops
  if loops = 0 then return 0
  setStatus 0
  throw (.leave goesOn (min n loops))

def shift : Builtin := fun args => do
  let n ← match args with
    | [] => pure 1
    | t :: _ => number t
  let s ← get
  if s.arguments.length < n then abort "can't shift that many"
  set { s with arguments := s.arguments.drop n }
  return 0

def times : Builtin := fun _ => write "0m0.000000s 0m0.000000s\n0m0.000000s 0m0.000000s\n"

end Builtin

end CallTrace.Shell
