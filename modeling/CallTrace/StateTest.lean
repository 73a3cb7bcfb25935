import CallTrace.Environment
import CallTrace.Transaction.Template

namespace CallTrace

/-- One run of a state test. -/
structure Instance where
  fork : Text
  gas : Int
  data : Int
  value : Int
  /-- What the test expects to be refused with; it is not looked at. -/
  expect : Json

namespace Instance

def indexes (i : Instance) : Indexes := ⟨some (.int i.gas), some (.int i.data), some (.int i.value)⟩

def id (i : Instance) : Except Fault Text := do
  return i.fork ++ "_" ++ (← Number.decimal i.gas) ++ "_" ++ (← Number.decimal i.data) ++ "_" ++
    (← Number.decimal i.value)

def ofJson (fork : Text) (j : Json) : Except Fault Instance :=
  Fault.onMissing (.postStateLacks fork) do
    let indexes ← j.field "indexes"
    let data ← indexes.field "data" >>= Json.toInt
    let gas ← indexes.field "gas" >>= Json.toInt
    let value ← indexes.field "value" >>= Json.toInt
    let expect ← j.fieldOr "expectException" .null
    return ⟨fork, gas, data, value, expect⟩

end Instance

structure StateTest where
  name : Text
  pre : WorldState
  env : Environment
  template : TransactionTemplate
  instances : List (Text × List Instance)

namespace StateTest

def forks (t : StateTest) : List Text := t.instances.map Prod.fst

def instanceName (t : StateTest) (i : Instance) : Except Fault Text := do return t.name ++ "_" ++ (← i.id)

def instantiate (t : StateTest) (i : Instance) : Except Fault Transaction :=
  t.template.instantiate i.indexes

/-- Which instances to run. -/
abbrev Filter := Instance → Bool

def everyInstance : Filter := fun _ => true

def ofFork (fork : Text) : Filter := fun i => i.fork = fork

def select (t : StateTest) (p : Filter) : List Instance := (t.instances.flatMap Prod.snd).filter p

def display (t : StateTest) : Text :=
  "StateTest(" ++ Text.quoted t.name ++ ", forks=" ++
    Text.quotedList (Text.sorted t.forks) ++ ")"

def instancesOf (f : Text × Json) : Except Fault (Text × List Instance) := do
  return (f.1, ← (← f.2.items).mapM (Instance.ofJson f.1))

/-- The parts of a state test, its instances still unread. -/
def partsOf (j : Json) : Except Fault (WorldState × Environment × TransactionTemplate × Json) := do
  let pre ← j.field "pre" >>= WorldState.ofJson
  let env ← j.field "env" >>= Environment.ofJson
  let template ← j.field "transaction" >>= TransactionTemplate.ofJson
  return (pre, env, template, ← j.field "post")

def ofJson (name : Text) (j : Json) : Except Fault StateTest := do
  let (pre, env, template, post) ← Fault.onMissing (.stateTestLacks name) (partsOf j)
  let instances ← (← post.fields).mapM instancesOf
  return ⟨name, pre, env, template, instances⟩

/-- The tests of a fixture, by name. -/
def allOfJson (j : Json) : Except Fault (List StateTest) := do
  (← j.fields).mapM fun f => ofJson f.1 f.2

end StateTest

end CallTrace
