import CallTrace.Process.Basic
import CallTrace.Shell.Evaluator

namespace CallTrace.Shell

def homePath : Text := "/root"

def directories : List Place :=
  let top := Text.split ' ' "bin boot dev etc home lib media mnt opt proc root run sbin srv sys tmp usr var"
  let below := Text.split ' ' "bin lib local sbin share"
  Kind.streamPlace :: (top.map (fun name => [name]) ++ below.map fun name => [Text.ofString "usr", name])

def plainFiles : List Place := (Text.split ' ' "group hostname hosts passwd").map fun name =>
  [Text.ofString "etc", name]

def initialTree : FileTree :=
  let devices := Kind.devices.map fun name => Kind.devicePlace ++ [name]
  let programs := Kind.programPlaces.flatMap fun p => Kind.programs.map fun name => p ++ [name]
  (plainFiles ++ devices ++ programs).foldl (fun t p => t.put p (.file [] false))
    (directories.foldl FileTree.ensure .empty)

/-- The variables that programs find. -/
def initialVariables : List (Text × Variable) :=
  let exported (name value : Text) : Text × Variable := (name, { value := some value, isExported := true })
  [exported "HOME" homePath, exported "PATH" "/usr/local/sbin:/usr/local/bin:/usr/sbin:/usr/bin:/sbin:/bin",
    exported "PWD" homePath]

/-- The number of the process that is started, and of the one that starts it. -/
def firstProcess : Nat := 1000

def initialState : State where
  machine := {
    clock := 1000
    tree := initialTree
    sinks := [(Machine.output, []), (Machine.errors, [])]
    tails := []
    sources := []
    processes := []
    signals := []
    next := 3
    nextProcess := firstProcess + 1 }
  process := firstProcess
  main := firstProcess
  parent := 1
  name := []
  arguments := []
  bindings := initialVariables
  functions := []
  streams := [(0, .nothing), (1, .sink Machine.output), (2, .sink Machine.errors)]
  held := [Machine.output, Machine.errors]
  here := [("root" : Text)]
  options := []

/-- How deep scripts go at most. -/
def fuel : Nat := 200000

/-- Runs a program up to its end, and until all that it started has let go of its output. -/
def course (word program : Text) (args : List Text) : Course :=
  let (ending, s) : Option Ending × State :=
    match (Evaluator.wholly fuel (Evaluator.started fuel word program args)).run initialState with
    | .ok ending s => (ending, s)
    | .error halt s => (Evaluator.endingOf halt, s)
  let m := s.machine
  let status : Int := match ending with
    | some (.exit n) => n
    | some (.killed signal) => -Int.ofNat signal
    | none => 0
  ⟨⟨status, Text.toOctets (m.written Machine.output), Text.toOctets (m.written Machine.errors)⟩,
    ending.bind fun _ => (m.doneAt Machine.output m.clock).bind (m.doneAt Machine.errors)⟩

/-- A word of a command has to have fewer octets than this, with one more behind them. -/
def maxWord : Nat := 131072

/-- The name of the program that a word leads to, or why it leads to none. -/
def program (word : Text) : Except FileFault Text := do
  let files : Files := ⟨initialTree, initialState.here⟩
  if word.contains (CodePoint.char '/') then
    match Kind.ofPath files word with
    | .ok .program => return Path.basename word
    | .ok _ => throw (.forbidden word)
    | .error (.tooLong _) => throw (.tooLong word)
    | .error (.notDirectory _) => throw (.notDirectory word)
    | .error _ => throw (.missing word)
  else if word.isOneOf Kind.programs then return word
  else if word.isEmpty || word = "." || word = ".." then throw (.forbidden word)
  else if FileTree.maxName < FileTree.nameLength word then throw (.tooLong word)
  else throw (.missing word)

def start : Launcher := fun command => do
  let word := command.headD []
  let name ← program word
  let octets := command.map fun t => (t.fileOctets?.getD [])
  if octets.any (maxWord ≤ ·.length) then throw (.wordsTooLong word)
  return course (Text.ofOctets (octets.headD [])) name ((octets.drop 1).map Text.ofOctets)

end CallTrace.Shell
