import CallTrace.FileTree
import CallTrace.Shell.Signal

namespace CallTrace.Shell

/-- What an input goes on with behind the text that is there. -/
inductive Tail where
  | ending
  | again (t : Text)
  /-- Nothing more comes, and it does not end. -/
  | silence

/-- Text that can be read. -/
structure Feed where
  text : Text
  tail : Tail := .ending
  /-- It comes from a file: what is read too much can be given back. -/
  isFile : Bool := false
  /-- When all of it has been written. -/
  ready : Nat := 0

namespace Feed

/-- All of a text that ends. -/
def all? (s : Feed) : Option Text :=
  match s.tail with
  | .ending => some s.text
  | _ => none

/-- At least so many octets, if so many come. -/
def filled (n : Nat) (s : Feed) : Feed :=
  match s.tail with
  | .again t =>
    if t.isEmpty then s
    else { s with text := s.text ++ (List.replicate ((n - s.text.length) / t.length + 1) t).flatten }
  | _ => s

/-- Octets from the front and what is left behind them; `none` if they never come. -/
def take? (n : Nat) (s : Feed) : Option (Text × Feed) :=
  let s := s.filled n
  match s.tail with
  | .silence => if s.text.length < n then none else some (s.text.take n, { s with text := s.text.drop n })
  | _ => some (s.text.take n, { s with text := s.text.drop n })

/-- The front of a text up to its first lines, and whether it holds so many. -/
def linesIn (n : Nat) (done : Text) : Text → Text × Text × Bool
  | [] => (done.reverse, [], n = 0)
  | c :: t =>
    match n with
    | 0 => (done.reverse, c :: t, true)
    | m + 1 => linesIn (if c = '\n' then m else m + 1) (c :: done) t

/-- Lines from the front and what is left behind them; `none` if they never come. -/
def takeLines? (n : Nat) (s : Feed) : Option (Text × Feed) :=
  let s := match s.tail with
    | .again t => if t.contains (CodePoint.char '\n') then s.filled (s.text.length + n * t.length) else s
    | _ => s
  let (front, rest, isFull) := linesIn n [] s.text
  match isFull, s.tail with
  | false, .ending | true, _ => some (front, { s with text := rest })
  | false, _ => none

/-- How much programs read at a time that look for lines. -/
def block : Nat := 8192

/-- What lines were taken from is lost up to the end of the block, unless it can be given back. -/
def withoutBlock (taken : Nat) (s : Feed) : Feed :=
  if s.isFile then s else { s with text := s.text.drop ((block - taken % block) % block) }

def map (f : Text → Text) (s : Feed) : Feed :=
  { s with
    text := f s.text
    tail := match s.tail with
      | .again t => .again (f t)
      | t => t }

end Feed

/-- What a stream of a process leads to. -/
inductive Stream where
  /-- Text that is kept by its number. -/
  | sink (number : Nat)
  | source (number : Nat)
  /-- The end of a file. -/
  | file (p : Place)
  /-- What is written goes nowhere, and there is nothing to read. -/
  | nothing
  /-- There is no room to write. -/
  | full
deriving DecidableEq

/-- How a process ends. -/
inductive Ending where
  | exit (status : Nat)
  | killed (signal : Signal)
deriving DecidableEq

/-- The status that a shell has for an end. -/
def Ending.status : Ending → Nat
  | .exit n => n
  | .killed s => 128 + s

structure Process where
  number : Nat
  parent : Nat
  start : Nat
  /-- When it ends, if ever. -/
  finish : Option Nat
  ending : Ending
  /-- The sinks that are not done before it ends. -/
  sinks : List Nat
  /-- The signals that do nothing to it. -/
  ignored : List Signal

/-- A piece of what was written. -/
structure Chunk where
  time : Nat
  process : Nat
  text : Text

structure Machine where
  /-- Millionths of a second. -/
  clock : Nat
  tree : FileTree
  /-- What was written to each sink, last first. -/
  sinks : List (Nat × List Chunk)
  /-- What goes on to be written to sinks for ever. -/
  tails : List (Nat × Tail)
  sources : List (Nat × Feed)
  processes : List Process
  /-- Signals on their way to shells, with the time when they get there. -/
  signals : List (Nat × Signal × Nat)
  /-- The next number for a sink or a source, and for a process. -/
  next : Nat
  nextProcess : Nat

namespace Machine

/-- The sinks of a command that is run. -/
def output : Nat := 1

def errors : Nat := 2

/-- Puts a value in the place of what a number stood for. -/
def put (n : Nat) (a : α) : List (Nat × α) → List (Nat × α)
  | [] => [(n, a)]
  | (m, b) :: xs => if m = n then (n, a) :: xs else (m, b) :: put n a xs

def write (m : Machine) (process sink : Nat) (t : Text) : Machine :=
  { m with sinks := put sink (⟨m.clock, process, t⟩ :: (m.sinks.lookup sink).getD []) m.sinks }

/-- What was written to a sink, in the order of time. -/
def written (m : Machine) (sink : Nat) : Text :=
  let chunks := ((m.sinks.lookup sink).getD []).reverse
  ((chunks.mergeSort fun a b => a.time ≤ b.time).map Chunk.text).flatten

/-- When a sink is done, from some time on; `none` if it never is. -/
def doneAt (m : Machine) (sink start : Nat) : Option Nat :=
  (m.processes.filter fun p => p.sinks.contains sink).foldl
    (fun t p => match t, p.finish with
      | some t, some u => some (max t u)
      | _, _ => none) (some start)

def source (m : Machine) (n : Nat) : Feed := (m.sources.lookup n).getD { text := [] }

def setSource (m : Machine) (n : Nat) (s : Feed) : Machine := { m with sources := put n s m.sources }

/-- A new source. -/
def addSource (m : Machine) (s : Feed) : Nat × Machine :=
  (m.next, { m with sources := (m.next, s) :: m.sources, next := m.next + 1 })

/-- A new sink. -/
def addSink (m : Machine) : Nat × Machine :=
  (m.next, { m with sinks := (m.next, []) :: m.sinks, next := m.next + 1 })

def dropSink (m : Machine) (n : Nat) : Machine := { m with sinks := m.sinks.filter (·.1 ≠ n) }

def process? (m : Machine) (number : Nat) : Option Process := m.processes.find? (·.number = number)

/-- The processes that start below some of these at a time, or below others that do. Processes come before
those that they start. -/
def startedAfter (time : Nat) (lost : List Nat) (ps : List Process) : List Nat :=
  ps.foldl (fun lost p => if lost.contains p.parent && time < p.start then p.number :: lost else lost) lost

/-- Ends a process by a signal now: what it did from now on does not happen. -/
def kill (m : Machine) (number : Nat) (s : Signal) : Machine :=
  let lost := startedAfter m.clock [number] m.processes.reverse
  { m with
    sinks := m.sinks.map fun (n, chunks) =>
      (n, chunks.filter fun c => !(m.clock < c.time && lost.contains c.process))
    processes := (m.processes.filter fun p => p.number = number || !lost.contains p.number).map fun p =>
      if p.number = number then { p with finish := some m.clock, ending := .killed s } else p }

end Machine

end CallTrace.Shell
