import CallTrace.Shell.Numeral
import CallTrace.Shell.State

namespace CallTrace.Shell

/-- What a command of the shell's own does with its arguments, and its status. -/
abbrev Builtin := List Text → Action Nat

namespace Builtin

open Shell.Action

/-- Writes; what cannot be written is told. -/
def write (t : Text) : Action Nat := do
  if ← emit 1 t then return 0
  complain (((← get).builtin.getD []) ++ ": I/O error")
  return 1

def number (t : Text) : Action Nat :=
  match Numeral.count? t with
  | some n => return n
  | none => abort ("Illegal number: " ++ t)

/-- The letters in front of the arguments, by the letters that are known; some take the rest or the next
argument. -/
def lettersOf (known valued : Text) : Text → Action (List (CodePoint × Text) × Option CodePoint)
  | [] => return ([], none)
  | c :: t => do
    if valued.contains c then return if t.isEmpty then ([], some c) else ([(c, t)], none)
    if !known.contains c then abort ("Illegal option -" ++ [c])
    let (more, last) ← lettersOf known valued t
    return ((c, []) :: more, last)

def options (known valued : Text) : List Text → Action (List (CodePoint × Text) × List Text)
  | [] => return ([], [])
  | arg :: args => do
    if arg = "--" then return ([], args)
    if !arg.startsWith "-" || arg = "-" then return ([], arg :: args)
    let (given, last) ← lettersOf known valued (arg.drop 1)
    match last, args with
    | none, args =>
      let (more, rest) ← options known valued args
      return (given ++ more, rest)
    | some c, value :: args =>
      let (more, rest) ← options known valued args
      return (given ++ (c, value) :: more, rest)
    | some c, [] => abort ("No arg for -" ++ [c] ++ " option")

/-- A word as a shell reads it back. -/
def readable (t : Text) : Text :=
  "'" ++ Text.join "'\"'\"'" (t.split '\'') ++ "'"

/-- The name and the value of an argument that assigns one. -/
def assignment (arg : Text) : Text × Option Text :=
  let name := arg.takeWhile (· ≠ .char '=')
  match arg.drop name.length with
  | [] => (name, none)
  | _ :: value => (name, some value)

def checkName (name : Text) : Action PUnit := do
  if !isName name then abort (name ++ ": bad variable name")

/-- A command that does nothing. -/
def nothing (status : Nat) : Builtin := fun _ => return status

end Builtin

end CallTrace.Shell
