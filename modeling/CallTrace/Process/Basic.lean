import CallTrace.Json.Access
import CallTrace.Path

namespace CallTrace

/-- What a process leaves when it ends. A status below zero tells the signal that ended it. -/
structure Completion where
  status : Int
  stdout : Octets
  stderr : Octets
deriving DecidableEq

/-- A process that was started: what it comes to, and after how many millionths of a second it and all that
it left running have let go of its output, if ever. -/
structure Course where
  completion : Completion
  micros : Option Nat

/-- How commands are started on a machine. -/
abbrev Launcher := List Text → Except FileFault Course

namespace Completion

def text (c : Completion) : Text := Text.lossyUtf8 c.stdout

def errorText (c : Completion) : Text := Text.lossyUtf8 c.stderr

/-- What was written, by a process that ended well. -/
def success (c : Completion) : Except Fault Text :=
  if c.status = 0 then .ok c.text else .error (.process (.exit (.int c.status) c.errorText))

end Completion

/-- The time that a value allows, in seconds; null is no limit. -/
def timeLimit (j : Json) : Except Fault (Option Number) := do
  match j with
  | .null => return none
  | j =>
    let x ← j.toNumber
    let _ ← j.toReal
    return some x

/-- Whether so many millionths of a second are within a limit. What is no number allows no time at all. -/
def isWithinLimit (limit : Option Number) (micros : Option Nat) : Bool :=
  match limit, micros with
  | none, some _ => true
  | some x, some n => x.extent?.any (Extent.fraction n 1000000).isBelow
  | _, none => false

namespace Launcher

/-- Runs a command for no longer than a limit. -/
def run (launch : Launcher) (limit : Json) (command : List Text) : Except Fault Completion := do
  match command with
  | [] => throw .unsuited
  | program :: _ =>
    let _ ← command.mapM Path.octets
    match launch command with
    | .error reason => throw (.process (.launch (.text program) (some reason)))
    | .ok course =>
      if isWithinLimit (← timeLimit limit) course.micros then return course.completion
      else throw (.process (.timeout limit))

/-- What a command writes, if it ends well and in time. -/
def execute (launch : Launcher) (limit : Json) (command : List Text) : Except Fault Text :=
  launch.run limit command >>= Completion.success

end Launcher

end CallTrace
