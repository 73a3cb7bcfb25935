import CallTrace.Environment
import CallTrace.Transaction.Document
import CallTrace.Trace.Document

namespace CallTrace

/-- A transaction and what came of it. -/
structure TracedTransaction where
  transaction : Transaction
  outcome : Outcome
  data : Octets
  trace : Trace
deriving DecidableEq

namespace TracedTransaction

def toJson [Limits] (abbreviate : Bool) (t : TracedTransaction) : Except Fault Json := do
  let transaction ← t.transaction.toJson
  let trace ← t.trace.toJson abbreviate
  return .object [("transaction", transaction), ("outcome", .text t.outcome.name),
    ("data", .text (Hex.abbreviated Hex.defaultThreshold t.data)), ("trace", trace)]

def ofJson [Limits] (j : Json) : Except Fault TracedTransaction := do
  let transaction ← j.field "transaction" >>= Transaction.ofJson
  let outcome ← j.field "outcome" >>= Outcome.ofJson
  let data ← j.fieldOr "data" (.text "0x") >>= Hex.abbreviatedOctets
  let trace ← j.field "trace" >>= Trace.ofJson
  return ⟨transaction, outcome, data, trace⟩

end TracedTransaction

structure TracedInstance where
  id : Json
  tx : TracedTransaction

namespace TracedInstance

def toJson [Limits] (abbreviate : Bool) (i : TracedInstance) : Except Fault Json := do
  return .object [("id", i.id), ("tx", ← i.tx.toJson abbreviate)]

def ofJson [Limits] (j : Json) : Except Fault TracedInstance := do
  let id ← j.field "id"
  return ⟨id, ← j.field "tx" >>= TracedTransaction.ofJson⟩

def same (a b : TracedInstance) : Bool := a.id.same b.id && a.tx = b.tx

def sameAll : List TracedInstance → List TracedInstance → Bool
  | [], [] => true
  | a :: as, b :: bs => a.same b && sameAll as bs
  | _, _ => false

end TracedInstance

structure TraceTest where
  name : Text
  pre : WorldState
  env : Environment
  /-- The traced instances of each fork that has any. -/
  instances : List (Text × List TracedInstance)

namespace TraceTest

def forks (t : TraceTest) : List Text := t.instances.map Prod.fst

def display (t : TraceTest) : Text :=
  "TraceTest(" ++ Text.quoted t.name ++ ", forks=" ++
    Text.quotedList (Text.sorted t.forks) ++ ")"

def forkToJson [Limits] (abbreviate : Bool) (f : Text × List TracedInstance) : Except Fault (Text × Json) := do
  return (f.1, .list (← f.2.mapM (·.toJson abbreviate)))

def toJson [Limits] (abbreviate : Bool) (t : TraceTest) : Except Fault Json := do
  let pre ← WorldState.toJson t.pre
  let env ← t.env.toJson
  let tests ← t.instances.mapM (forkToJson abbreviate)
  return .object [("pre", pre), ("env", env), ("tests", .object tests)]

def forkOf [Limits] (f : Text × Json) : Except Fault (Text × List TracedInstance) := do
  return (f.1, ← (← f.2.items).mapM TracedInstance.ofJson)

def ofJson [Limits] (name : Text) (j : Json) : Except Fault TraceTest :=
  Fault.onMissing (.traceTestLacks name) do
    let pre ← j.field "pre" >>= WorldState.ofJson
    let env ← j.field "env" >>= Environment.ofJson
    let tests ← j.fieldOr "tests" (.object []) >>= Json.fields
    return ⟨name, pre, env, ← tests.mapM forkOf⟩

def sameFork (others : List (Text × List TracedInstance)) (f : Text × List TracedInstance) : Bool :=
  (others.lookup f.1).any (TracedInstance.sameAll f.2)

/-- Equality as values, whatever the order of the forks. -/
def same (a b : TraceTest) : Bool :=
  a.name = b.name && a.pre = b.pre && a.env.same b.env &&
    a.instances.length = b.instances.length && a.instances.all (sameFork b.instances)

end TraceTest

end CallTrace
