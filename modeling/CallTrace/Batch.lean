import CallTrace.StateTest
import CallTrace.Tool.Run
import CallTrace.TraceTest

namespace CallTrace

/-- An instance that came to nothing, and why. -/
structure Failure where
  test : Text
  fork : Text
  id : Text
  fault : Fault

namespace Failure

def familyName (f : Failure) : Text := (f.fault.family?.map (·.name)).getD []

def display (f : Failure) : Text :=
  f.test ++ "_" ++ f.id ++ ": " ++ f.familyName ++ ": " ++ f.fault.message

end Failure

/-- What each instance came to, in the order in which they were asked for. -/
abbrev Attempts := List (Instance × Except Failure TracedInstance)

namespace Attempts

def failure? : Instance × Except Failure TracedInstance → Option Failure
  | (_, .error f) => some f
  | (_, .ok _) => none

def failures (as : Attempts) : List Failure := as.filterMap failure?

def traced? : Instance × Except Failure TracedInstance → Option (Text × TracedInstance)
  | (i, .ok t) => some (i.fork, t)
  | (_, .error _) => none

/-- Puts a value at the end of the group of its key, which is a new last group if there is none yet. -/
def addTo (key : Text) (a : α) : List (Text × List α) → List (Text × List α)
  | [] => [(key, [a])]
  | (k, as) :: groups => if k = key then (k, as ++ [a]) :: groups else (k, as) :: addTo key a groups

/-- Values by key, in order. -/
def group (xs : List (Text × α)) : List (Text × List α) :=
  xs.foldl (fun groups x => addTo x.1 x.2 groups) []

def byFork (as : Attempts) : List (Text × List TracedInstance) := group (as.filterMap traced?)

end Attempts

/-- The trace test of a state test, with the instances that are missing from it. -/
structure Report where
  test : TraceTest
  failures : List Failure

namespace Report

def ofAttempts (t : StateTest) (as : Attempts) : Report :=
  ⟨⟨t.name, t.pre, t.env, as.byFork⟩, as.failures⟩

end Report

/-- The document of a fixture, with the instances that are missing from it. -/
structure Conversion where
  document : Json
  failures : List Failure

/-- What a transaction came to, with the trace of it. -/
structure TraceResult where
  outcome : Outcome
  data : Octets
  trace : Trace

/-- The result that a trace tells by itself. -/
def TraceResult.ofTrace (t : Trace) : TraceResult := ⟨t.outcome, t.data, t⟩

/-- What answers a transaction on a state in a block with a result, by the rules of a fork. -/
abbrev Executor := Json → Environment → WorldState → Transaction → Run TraceResult

def Executor.ofMachine (machine : Machine) : Executor := fun fork env pre tx => do
  return .ofTrace (← machine fork env pre tx)

structure Batch where
  executor : Executor
  filter : StateTest.Filter
  abbreviate : Bool
  /-- How many instances may run at once. The results are in order all the same. -/
  workers : Nat
  workers_pos : 0 < workers
  chance : Pool.Chance := fun _ => 0

namespace Batch

/-- How many instances run at once for a number above zero: a part of one counts as a whole one. -/
def atOnce (x : Number) : Nat := max 1 (x.ceiling?.getD 1).toNat

theorem atOnce_pos (x : Number) : 0 < atOnce x := Nat.lt_of_lt_of_le Nat.one_pos (Nat.le_max_left ..)

def ofWorkers (machine : Machine) (filter : StateTest.Filter) (abbreviate : Bool) (workers : Json) :
    Except Fault Batch := do
  let count ← workers.toNumber
  if count.isBelow (.whole 1) then throw (.badWorkers workers)
  return {
    executor := .ofMachine machine, filter, abbreviate, workers := atOnce count, workers_pos := atOnce_pos count }

def source : Text := "evmtrace.tools.driver.TraceGenerator"

/-- The transaction of an instance with its result, whatever the state test expected of it. -/
def trace (b : Batch) (t : StateTest) (i : Instance) : Run (Transaction × TraceResult) := do
  let tx ← Run.ofExcept (t.instantiate i)
  return (tx, ← b.executor (.text i.fork) t.env t.pre tx)

def remark (name : Text) : Except Fault (Transaction × TraceResult) → Log.Entry
  | .ok (_, result) => ⟨.debug, source, "Traced " ++ name ++ ": " ++ result.outcome.name⟩
  | .error f => ⟨.warning, source, "Failed to trace " ++ name ++ ": " ++ f.message⟩

/-- How a report lists an instance. -/
def listed (t : StateTest) (i : Instance) (id : Text) :
    Except Fault (Transaction × TraceResult) → Except Failure TracedInstance
  | .ok (tx, result) => .ok ⟨.text id, tx, result.outcome, result.data, result.trace⟩
  | .error f => .error ⟨t.name, i.fork, id, f⟩

/-- An instance is told of by its name, whether it failed or not. One that has no name ends the batch. -/
def attempt (b : Batch) (t : StateTest) (i : Instance) : Run (Instance × Except Failure TracedInstance) := do
  let result ← (b.trace t i).attempted
  Run.tell (remark (← Run.ofExcept (t.instanceName i)) result)
  return (i, listed t i (← Run.ofExcept i.id) result)

def convert (b : Batch) (t : StateTest) : Run Report := do
  return .ofAttempts t (← Run.forEach b.workers b.chance (b.attempt t) (t.select b.filter))

def convertTest [Limits] (b : Batch) (t : StateTest) : Run ((Text × Json) × List Failure) := do
  let report ← b.convert t
  let document ← Run.ofExcept (report.test.toJson b.abbreviate)
  return ((t.name, document), report.failures)

/-- All tests of a fixture. Nothing is run unless every one of them can be read. -/
def convertFixture [Limits] (b : Batch) (fixture : Json) : Run Conversion := do
  let parts ← (← Run.ofExcept (StateTest.allOfJson fixture)).mapM b.convertTest
  return ⟨.object (parts.map Prod.fst), parts.flatMap Prod.snd⟩

end Batch

end CallTrace
