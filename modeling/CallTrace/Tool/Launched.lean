import CallTrace.Process.Basic
import CallTrace.Tool.Reply

namespace CallTrace.Tool

def faultOf : Except Fault Text → Option Fault
  | .ok _ => none
  | .error f => some f

/-- A word of a command has to be a text. -/
def wordOf : Json → Except Fault Text
  | .text s => .ok s
  | _ => .error .unsuited

def execute (launch : Launcher) (limit : Json) (command : List Json) : Except Fault Text := do
  launch.execute limit (← command.mapM wordOf)

/-- The tool as a program that is launched. -/
def ofLauncher (launch : Launcher) : Tool where
  version binary := execute launch versionTimeout [binary, .text "--version"]
  run i := ⟨[], faultOf (execute launch i.timeout i.command)⟩

end CallTrace.Tool
