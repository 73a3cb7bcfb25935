import CallTrace.Shell.Builtin.Basic
import CallTrace.Shell.Printf

namespace CallTrace.Shell

namespace Builtin

open Shell.Action

def trap : Builtin := fun args => do
  let (_, args) ← options [] [] args
  match args with
  | [] =>
    let traps := (← get).traps.mergeSort fun a b => a.1 ≤ b.1
    write (Text.concat (traps.map fun (s, action) =>
      "trap -- " ++ readable action ++ " " ++ Signal.name s ++ "\n"))
  | first :: rest =>
    let (action, names) : Option Text × List Text :=
      if rest.isEmpty then (none, [first]) else (if first = "-" then none else some first, rest)
    for name in names do
      match Signal.ofText? name with
      | none =>
        tell ("trap: " ++ name ++ ": bad trap\n")
        return 1
      | some signal => modify fun s =>
        let others := s.traps.filter (·.1 ≠ signal)
        { s with traps := match action with
          | some action => (signal, action) :: others
          | none => others }
    return 0

/-- Does to this shell what a signal does. -/
def receive (signal : Signal) : Action PUnit := do
  let s ← get
  match if Signal.isForced signal then none else s.traps.lookup signal with
  | some action =>
    if !action.isEmpty then modify fun s => { s with raised := s.raised ++ [signal] }
  | none =>
    if Signal.isHarmless signal || (s.ignored.contains signal && !Signal.isForced signal) then return
    if Signal.halts signal then throw .stuck
    throw (.killed signal)

/-- Sends a signal to a process; false if there is none. -/
def send (signal : Signal) (number : Nat) : Action Bool := do
  let s ← get
  if number = s.process then
    if signal ≠ 0 then receive signal
    return true
  if number = s.main || number = s.parent then
    if signal ≠ 0 then onMachine fun m => { m with signals := m.signals ++ [(number, signal, m.clock)] }
    return true
  match s.machine.process? number with
  | none => return false
  | some p =>
    if p.finish.any (· ≤ s.waited) then return false
    let isGone := p.finish.any (· ≤ s.machine.clock)
    let isIgnored := p.ignored.contains signal && p.start + 1000 < s.machine.clock
    if !isGone && !isIgnored && !Signal.isHarmless signal then
      if Signal.halts signal then
        onMachine fun m => { m with processes := m.processes.map fun q =>
          if q.number = number then { q with finish := none } else q }
      else onMachine (·.kill number signal)
    return true

/-- The job that a word with a percent sign means. -/
def jobOf (arg : Text) : Action Job := do
  let jobs := (← get).jobs
  let mark := arg.drop 1
  let named? (job? : Option Job) (fault : Text) : Action Job :=
    match job? with
    | some job => return job
    | none => abort fault
  if mark.isEmpty || mark = "%" || mark = "+" then named? jobs.head? "No current job"
  else if mark = "-" then named? jobs[1]? "No previous job"
  else named? (jobs.find? fun job => Numeral.count? mark = some job.number) ("No such job: " ++ arg)

def killUsage : Text :=
  "Usage: kill [-s sigspec | -signum | -sigspec] [pid | job]... or\nkill -l [exitstatus]"

def killAll (signal : Signal) (args : List Text) : Action Nat := do
  if args.isEmpty then abort killUsage
  let mut status := 0
  for arg in args do
    let isThere ←
      if arg.startsWith "%" then
        let _ ← jobOf arg
        pure false
      else if arg.startsWith "-" then
        let _ ← number (arg.drop 1)
        pure false
      else send signal (← number arg)
    if !isThere then
      complain "No such process\n"
      status := 1
  return status

def kill : Builtin := fun args => do
  match args with
  | [] => abort killUsage
  | first :: rest =>
    if !first.startsWith "-" then return ← killAll 15 args
    match Signal.ofText? (first.drop 1) with
    | some signal => if signal ≠ 0 || first = "-0" then return ← killAll signal rest
    | none => pure ⟨⟩
    let (given, rest) ← options "l" "s" args
    if given.any (·.1 = .char 'l') then
      match rest with
      | [] => return ← write (Text.concat ((List.range Signal.bound).map fun s =>
          (if s = 0 then Text.ofString "0" else Signal.name s) ++ Text.ofString "\n"))
      | t :: _ =>
        let n ← number t
        let n := if 128 < n then n - 128 else n
        if 0 < n && n < Signal.bound then return ← write (Signal.name n ++ "\n")
        abort ("invalid signal number or exit status: " ++ t)
    match given.find? (·.1 = .char 's') with
    | none => killAll 15 rest
    | some (_, name) =>
      match Signal.ofText? name with
      | some signal => killAll signal rest
      | none => abort ("invalid signal number or name: " ++ name)

/-- The first signal that comes up to some time and has something to be done about it. -/
def interruption? (s : State) (time : Nat) : Option (Signal × Nat) :=
  let coming := s.machine.signals.filter fun (number, signal, t) =>
    number = s.process && t ≤ time && (s.traps.lookup signal).any (!·.isEmpty)
  (coming.mergeSort fun a b => a.2.2 ≤ b.2.2).head?.map (·.2)

/-- Waits for a process that was started in the background, and has its status. A signal may come first. -/
def await (number : Nat) : Action Nat := do
  let s ← get
  match s.machine.process? number with
  | none => return 127
  | some p =>
    match interruption? s (p.finish.getD (s.machine.clock + 1000000000)) with
    | some (signal, time) =>
      waitUntil time
      return 128 + signal
    | none =>
      match p.finish with
      | none => throw .stuck
      | some time =>
        waitUntil time
        modify fun s => { s with waited := s.machine.clock }
        return p.ending.status

/-- Tells of the signal that ended a process. -/
def tellOf : Ending → Action PUnit
  | .killed signal =>
    match Signal.told? signal with
    | some t => tell (t ++ "\n")
    | none => pure ⟨⟩
  | .exit _ => pure ⟨⟩

def markWaited (process : Nat) : Action PUnit := modify fun s => { s with
  jobs := s.jobs.map fun job => if job.process = process then { job with isWaited := true } else job }

def isInterrupted : Action Bool := return (interruption? (← get) (← get).machine.clock).isSome

def wait : Builtin := fun args => do
  let (_, args) ← options [] [] args
  if args.isEmpty then
    for job in (← get).jobs do
      let status ← await job.process
      if ← isInterrupted then return status
      markWaited job.process
    return 0
  let mut status := 0
  for arg in args do
    let process? ←
      if arg.startsWith "%" then pure (some (← jobOf arg).process)
      else
        let n ← number arg
        pure (((← get).jobs.find? (·.process = n)).map Job.process)
    match process? with
    | none => status := 127
    | some n =>
      let before := (← get).waited
      status ← await n
      if ← isInterrupted then return status
      markWaited n
      match (← get).machine.process? n with
      | some p => if !p.finish.any (· ≤ before) then tellOf p.ending
      | none => pure ⟨⟩
  return status

/-- How far a process has got. -/
def progress (m : Machine) (p : Process) : Text :=
  if !p.finish.any (· ≤ m.clock) then "Running"
  else match p.ending with
    | .exit 0 => "Done"
    | .exit n => "Done(" ++ Text.ofNat n ++ ")"
    | .killed signal => Signal.title signal

/-- Lists jobs, so many of which go on. Those that are done are forgotten. -/
def list (onlyProcess : Bool) (running : Nat) : List Job → Action PUnit
  | [] => return
  | job :: jobs => do
    let m := (← get).machine
    match m.process? job.process with
    | none => list onlyProcess running jobs
    | some p =>
      let mark : Text := if running = 0 then "+ " else if running = 1 then "- " else "  "
      let line := "[" ++ Text.ofNat job.number ++ "] " ++ mark ++ Printf.inField true 27 (progress m p)
      let _ ← write ((if onlyProcess then Text.ofNat p.number else line) ++ "\n")
      if p.finish.any (· ≤ m.clock) then
        modify fun s => { s with jobs := s.jobs.filter (·.process ≠ job.process) }
        list onlyProcess running jobs
      else list onlyProcess (running + 1) jobs

def jobs : Builtin := fun args => do
  let (given, args) ← options "lp" [] args
  let onlyProcess := given.any (·.1 = .char 'p')
  if args.isEmpty then list onlyProcess 0 (← get).jobs
  for arg in args do
    list onlyProcess 0 [← jobOf arg]
  return 0

/-- Jobs are brought to the front or made to go on only under job control. -/
def controlled : Builtin := fun args => do
  let name := args.headD "%%"
  let _ ← jobOf name
  abort ("job " ++ (if args.isEmpty then "(null)" else name : Text) ++ " not created under job control")

end Builtin

end CallTrace.Shell
