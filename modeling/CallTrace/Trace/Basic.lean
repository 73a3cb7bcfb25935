import CallTrace.Trace.Step
import CallTrace.Outcome

namespace CallTrace

/-- What happened in a call: its steps and the calls it made, in order, and how it ended. -/
inductive Trace where
  | ended (outcome : Outcome) (data : Octets)
  | step (s : Step) (rest : Trace)
  | call (inner : Trace) (rest : Trace)
deriving DecidableEq, Inhabited

namespace Trace

/-- A part of a trace: a step, or a call with all that happened in it. -/
inductive Element where
  | step (s : Step)
  | call (t : Trace)
deriving DecidableEq

def outcome : Trace → Outcome
  | .ended o _ => o
  | .step _ rest | .call _ rest => rest.outcome

/-- What the call returned or reverted with; otherwise nothing. -/
def data : Trace → Octets
  | .ended _ bs => bs
  | .step _ rest | .call _ rest => rest.data

def elements : Trace → List Element
  | .ended .. => []
  | .step s rest => .step s :: rest.elements
  | .call t rest => .call t :: rest.elements

def cons : Element → Trace → Trace
  | .step s, rest => .step s rest
  | .call t, rest => .call t rest

def ofElements (es : List Element) (o : Outcome) (bs : Octets) : Trace := es.foldr cons (.ended o bs)

/-- How deep calls lie within one another below the call itself. -/
def nesting : Trace → Nat
  | .ended .. => 0
  | .step _ rest => rest.nesting
  | .call inner rest => max (inner.nesting + 1) rest.nesting

/-- The steps of the call itself. -/
def steps : Trace → List Step
  | .ended .. => []
  | .step s rest => s :: rest.steps
  | .call _ rest => rest.steps

/-- The calls that the call itself made. -/
def calls : Trace → List Trace
  | .ended .. => []
  | .step _ rest => rest.calls
  | .call t rest => t :: rest.calls

theorem ofElements_elements (t : Trace) : ofElements t.elements t.outcome t.data = t := by
  induction t with
  | ended o bs => rfl
  | step s rest ih => exact congrArg (Trace.step s) ih
  | call inner rest _ ih => exact congrArg (Trace.call inner) ih

@[simp] theorem elements_ofElements (es : List Element) (o : Outcome) (bs : Octets) :
    (ofElements es o bs).elements = es := by
  induction es with
  | nil => rfl
  | cons e es ih => cases e <;> exact congrArg _ ih

@[simp] theorem outcome_ofElements (es : List Element) (o : Outcome) (bs : Octets) :
    (ofElements es o bs).outcome = o := by
  induction es with
  | nil => rfl
  | cons e es ih => cases e <;> exact ih

@[simp] theorem data_ofElements (es : List Element) (o : Outcome) (bs : Octets) :
    (ofElements es o bs).data = bs := by
  induction es with
  | nil => rfl
  | cons e es ih => cases e <;> exact ih

end Trace

end CallTrace
