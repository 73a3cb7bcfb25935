import CallTrace.Shell.Kind
import CallTrace.Shell.Machine
import CallTrace.Shell.Syntax

namespace CallTrace.Shell

structure Variable where
  value : Option Text := none
  isExported : Bool := false
  isFixed : Bool := false

/-- A process in the background that a shell knows of. -/
structure Job where
  number : Nat
  process : Nat
  /-- It has been waited for, so its number may be given away. -/
  isWaited : Bool := false

structure State where
  machine : Machine
  /-- The number of this process, and of the one that the shell was started as. -/
  process : Nat
  main : Nat
  parent : Nat
  /-- The name of the script. -/
  name : Text
  arguments : List Text
  bindings : List (Text × Variable)
  functions : List (Text × Command)
  aliases : List (Text × Text) := []
  /-- The texts in scripts that redirections refer to, by number. -/
  documents : List (Nat × Word) := []
  streams : List (Nat × Stream)
  /-- The sinks that are not done before this process ends. -/
  held : List Nat
  here : Place
  options : Text
  status : Nat := 0
  line : Nat := 1
  /-- The command of the shell's own that is under way. -/
  builtin : Option Text := none
  /-- Whether it runs in the background. -/
  isJob : Bool := false
  /-- The process that was last started in the background. -/
  last : Option Nat := none
  /-- The processes that the shell can still wait for, last one first. -/
  jobs : List Job := []
  /-- When it last waited for some process: those that had ended by then are gone. -/
  waited : Nat := 0
  /-- What is left out of the rights of new files. -/
  mask : Nat := 0o22
  /-- What is done about signals; nothing at all for an empty text. -/
  traps : List (Signal × Text) := []
  /-- The signals that have done nothing to this process since it started. -/
  ignored : List Signal := []
  /-- The signals for which something has to be done soon. -/
  raised : List Signal := []
  /-- How many loops and calls there are around the command at hand. -/
  loops : Nat := 0
  calls : Nat := 0
  /-- The values that variables get back at the end of calls. -/
  saved : List (List (Text × Variable)) := []
  /-- The options that the shell gets back at the end of calls, where they are to be. -/
  savedOptions : List (Option Text) := []
  /-- The status of the last script among the values for the command at hand. -/
  captured : Nat := 0
  /-- How many of the letters of an argument have been gone through as options. -/
  optionLetters : Nat := 0

namespace Job

/-- The first number that no job needs any more. -/
def freeNumber (jobs : List Job) : Nat :=
  let used := (jobs.filter (!·.isWaited)).map Job.number
  ((List.range' 1 (used.length + 1)).find? (!used.contains ·)).getD 1

/-- A new job, which takes the place of one that has been waited for. -/
def add (process : Nat) (s : State) : State :=
  let number := freeNumber s.jobs
  { s with jobs := { number, process } :: s.jobs.filter (·.number ≠ number) }

end Job

/-- Why the commands at hand come to an end. -/
inductive Halt where
  | exit (status : Nat)
  | killed (s : Signal)
  /-- They never end. -/
  | stuck
  /-- Loops are left, and the last of them goes on perhaps. -/
  | leave (goesOn : Bool) (loops : Nat)
  /-- A call ends. -/
  | back
  /-- Something was wrong. It ends the shell, or the command of the shell's own that is under way. -/
  | failed

/-- What a shell does. -/
abbrev Action := EStateM Halt State

namespace Action

def onMachine (f : Machine → Machine) : Action PUnit := modify fun s => { s with machine := f s.machine }

def spend (micros : Nat) : Action PUnit := onMachine fun m => { m with clock := m.clock + micros }

/-- Time goes on up to some point. -/
def waitUntil (time : Nat) : Action PUnit := onMachine fun m => { m with clock := max m.clock time }

def setStatus (status : Nat) : Action PUnit := modify fun s => { s with status }

def stream? (n : Nat) : Action (Option Stream) := return (← get).streams.lookup n

/-- Writes to a stream; false if that is not possible. -/
def emit (n : Nat) (t : Text) : Action Bool := do
  let s ← get
  match ← stream? n with
  | some (.sink k) =>
    if !t.isEmpty then onMachine (·.write s.process k t)
    return true
  | some (.file p) =>
    onMachine fun m =>
      let before : Text := match m.tree.find? p with
        | some (.file u _) => u
        | _ => []
      { m with tree := m.tree.put p (.file (before ++ t) false) }
    return true
  | some .nothing => return true
  | some .full => return t.isEmpty
  | some (.source _) | none => return false

/-- Tells on the second stream. -/
def tell (t : Text) : Action PUnit := do
  let _ ← emit 2 t

/-- Tells what is wrong, behind the name of the script and the line. -/
def complain (t : Text) : Action PUnit := do
  let s ← get
  let command : Text := match s.builtin with
    | some name => name ++ ": "
    | none => []
  tell (s.name ++ ": " ++ Text.ofNat s.line ++ ": " ++ command ++ t ++ "\n")

/-- Tells what is wrong and gives up. -/
def abort (t : Text) : Action α := do
  complain t
  setStatus 2
  throw .failed

def hasOption (letter : Char) : Action Bool := return (← get).options.contains (CodePoint.char letter)

def heldVariable (name : Text) : Action (Option Variable) := return (← get).bindings.lookup name

def value? (name : Text) : Action (Option Text) := return (← heldVariable name).bind Variable.value

def putVariable (name : Text) (v : Variable) : List (Text × Variable) → List (Text × Variable)
  | [] => [(name, v)]
  | (n, w) :: vs => if n = name then (name, v) :: vs else (n, w) :: putVariable name v vs

def setVariable (name : Text) (v : Variable) : Action PUnit :=
  modify fun s => { s with bindings := putVariable name v s.bindings }

/-- Gives a variable a value, unless it is fixed. -/
def assign (name value : Text) : Action PUnit := do
  let v := (← heldVariable name).getD {}
  if v.isFixed then abort (name ++ ": is read only")
  let isExported := v.isExported || (← hasOption 'a')
  setVariable name { v with value := some value, isExported }
  if name = "OPTIND" then modify fun s => { s with optionLetters := 0 }

def files : Action Files := return ⟨(← get).machine.tree, (← get).here⟩

/-- What a stream can be read from; `none` if it cannot. -/
def source? (n : Nat) : Action (Option Feed) := do
  match ← stream? n with
  | some (.source k) => return some ((← get).machine.source k)
  | some .nothing | some .full => return some { text := [] }
  | _ => return none

/-- Takes text from a stream by some way of taking; it may never come. -/
def take (n : Nat) (f : Feed → Option (Text × Feed)) : Action Text := do
  match ← stream? n with
  | some (.source k) =>
    let source := (← get).machine.source k
    match f source with
    | some (t, rest) =>
      if !t.isEmpty || rest.text.isEmpty then waitUntil source.ready
      onMachine (·.setSource k rest)
      return t
    | none => throw .stuck
  | _ => return []

def kind? (path : Text) : Action (Option Kind) := return (Kind.ofPath (← files) path).toOption

/-- The stream that the name of a device stands for. -/
def deviceStream? (name : Text) : Option Nat :=
  if name = "/dev/stdin" then some 0
  else if name = "/dev/stdout" then some 1
  else if name = "/dev/stderr" then some 2
  else if name.startsWith "/dev/fd/" then Numeral.count? (name.drop 8)
  else none

/-- A new source as a stream. -/
def newSource (source : Feed) : Action Stream := do
  let (n, m) := (← get).machine.addSource source
  modify fun s => { s with machine := m }
  return .source n

/-- Opens what can be opened without looking at files. -/
def device? (name : Text) : Action (Option (Option Stream)) := do
  match deviceStream? name with
  | some n => return some (← stream? n)
  | none =>
    if name = "/dev/null" then return some (some .nothing)
    if name = "/dev/zero" then return some (some (← newSource { text := [], tail := .again "\x00" }))
    if name = "/dev/full" then return some (some .full)
    return none

/-- Why a file cannot be opened, as a shell says it. -/
def openFault (f : FileFault) (whereMissing : Text) : Text :=
  match f with
  | .tooLong _ => "File name too long"
  | .isDirectory _ => "Is a directory"
  | .present _ => "File exists"
  | .forbidden _ => "Permission denied"
  | _ => whereMissing

/-- Opens a file to read it; a fault is told by its words. -/
def openToRead (name : Text) : Action (Except Text Stream) := do
  let fault (f : FileFault) : Text := "cannot open " ++ name ++ ": " ++ openFault f "No such file"
  match ← device? name with
  | some (some stream) => return .ok stream
  | some none => return .error (fault (.missing name))
  | none =>
    let fs ← files
    match Kind.ofPath fs name with
    | .error f => return .error (fault f)
    | .ok (.file _) =>
      match (fs.place name).toOption.bind fs.tree.find? with
      | some (.file t _) => return .ok (← newSource { text := t, isFile := true })
      | _ => return .ok .nothing
    | .ok _ => return .ok .nothing

/-- Opens a file to write to its end, perhaps after what it holds is dropped. -/
def openToWrite (name : Text) (keeps mayBeThere : Bool) : Action (Except Text Stream) := do
  let fault (f : FileFault) : Text := "cannot create " ++ name ++ ": " ++ openFault f "Directory nonexistent"
  match ← device? name with
  | some (some (.source _)) => return .ok .nothing
  | some (some stream) => return .ok stream
  | some none => return .error (fault (.missing name))
  | none =>
    let fs ← files
    match fs.place name with
    | .error f => return .error (fault f)
    | .ok p =>
      if name.endsWith "/" || Kind.isProgramPlace p then return .error (fault (.isDirectory name))
      match fs.tree.find? p with
      | some .directory => return .error (fault (.isDirectory name))
      | some (.file t _) =>
        if !mayBeThere then return .error (fault (.present name))
        onMachine fun m => { m with tree := m.tree.put p (.file (if keeps then t else []) false) }
        return .ok (.file p)
      | none =>
        if fs.tree.find? p.dropLast ≠ some .directory then return .error (fault (.missing name))
        onMachine fun m => { m with tree := m.tree.put p (.file [] false) }
        return .ok (.file p)

def setStream (n : Nat) (stream : Option Stream) : Action PUnit := modify fun s =>
  let others := s.streams.filter (·.1 ≠ n)
  { s with streams := match stream with
    | some stream => (n, stream) :: others
    | none => others }

/-- The sinks that the streams of a shell lead to. -/
def heldSinks (s : State) : List Nat := s.streams.filterMap fun (_, stream) =>
  match stream with
  | .sink n => some n
  | _ => none

def ignoredSignals (s : State) : List Signal :=
  s.ignored ++ (s.traps.filter fun t => t.2.isEmpty).map (·.1)

/-- The names and values that programs are started with. -/
def environment (s : State) : List (Text × Text) := s.bindings.filterMap fun (name, v) =>
  if v.isExported then v.value.map fun t => (name, t) else none

end Action

end CallTrace.Shell
