import CallTrace.CommandLine.Arguments
import CallTrace.Program.Job

namespace CallTrace

/-- What the program finds around it. -/
structure Surroundings where
  vars : Variables
  files : Files
  tool : Tool
  /-- The name of a directory for the tool to work in. -/
  workdir : Text
  shows : Charset := .unicode

/-- How the program ends: with a status, unless a fault escapes. -/
structure Ending where
  console : Console
  status : Except Fault Nat

namespace Program

def helpLine (f : Flag) : Text :=
  "  " ++ Text.join ", " f.names ++ (if f.takesValue then " VALUE\n" else "\n" : Text)

def helpText : Text := "usage: evmtrace [FLAG ...] [FILE ...]\n\n" ++ Text.concat (Flag.all.map helpLine)

def refuse (c : Console) (m : Misuse) : Ending := ⟨c.warn m.line, .ok 2⟩

def stop (c : Console) : Stop → Ending
  | .help =>
    let (told, c) := c.tell helpText
    ⟨c, told.map fun _ => 0⟩
  | .misuse m => refuse c m

def preferences (a : Arguments) : Preferences :=
  .ofFields [("binary", a.binary.toJson .text), ("timeout", a.timeout.toJson .real),
    ("stack_size", a.stackSize.toJson .int)]

/-- The settings and the batch that arguments ask for. -/
def prepare [Limits] (w : Surroundings) (a : Arguments) : Except Fault (Settings × Batch) := do
  let s ← Settings.resolve (preferences a) .base w.vars
  let b ← Batch.ofWorkers (s.machine w.tool w.workdir) a.filter (a.abbreviate.toJson .bool).isGiven
    (a.workers.toJson .int)
  return (s, b)

def job (a : Arguments) (b : Batch) : Job :=
  { batch := b, out := a.out, packed := a.packed, pretty := a.pretty, incremental := a.incremental }

def convert [Limits] (a : Arguments) (b : Batch) (c : Console) : Progress :=
  match a.directory with
  | .absent => (job a b).convertFiles c a.files
  | directory => (job a b).convertDirectory c directory a.includes a.excludes

def alarm (c : Console) (text : Text) : Console := c.warnLine (Text.coloured .red ("*** " ++ text))

/-- Tells the version of the tool, if it has one to tell. -/
def checked (s : Settings) (c : Console) : Option Text → Bool × Console
  | some version => (true, c.warnLine ("Geth version: " ++ version))
  | none => (false, alarm c (s.binary.plain ++ " not installed"))

/-- Converts what arguments ask for, the tool being there. -/
def convertChecked [Limits] (w : Surroundings) (a : Arguments) (c : Console) (s : Settings) (b : Batch) :
    Ending :=
  let version := s.version w.tool
  let c := c.absorb version
  match version.result with
  | .error f =>
    if f.isDomain then ⟨alarm c (s.binary.plain ++ " --version failed: " ++ f.message), .ok 1⟩
    else ⟨c, .error f⟩
  | .ok version =>
    match checked s c version with
    | (false, c) => ⟨c, .ok 1⟩
    | (true, c) =>
      let p := convert a b c
      ⟨p.console, p.status⟩

/-- Whether a fault of the settings is one that the user is told of. -/
def isBadSetting : Fault → Bool
  | .badIntegerSetting .. | .badNumberSetting .. | .badTimeout _ | .badStackSize _ | .badWorkers _ => true
  | _ => false

/-- Does what arguments ask for. -/
def serve [Limits] (w : Surroundings) (a : Arguments) (c : Console) : Ending :=
  if a.directory = .absent && a.files.isEmpty then refuse c .noInput
  else match prepare w a with
    | .error f => if isBadSetting f then refuse c (.badSetting f) else ⟨c, .error f⟩
    | .ok (s, b) => convertChecked w a c s b

def run [Limits] (w : Surroundings) (words : List Text) : Ending :=
  let c : Console := { files := w.files, shows := w.shows }
  match Arguments.ofList words with
  | .error s => stop c s
  | .ok a => serve w a { c with verbose := a.verbose }

end Program

end CallTrace
