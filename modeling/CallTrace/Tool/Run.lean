import CallTrace.Log
import CallTrace.Pool
import CallTrace.Table
import CallTrace.Tool.Reply

namespace CallTrace

structure Run (α : Type u) where
  result : Except Fault α
  invocations : List Invocation
  log : List Log.Entry

namespace Run

variable {α β : Type u}

/-- What needs no tool. -/
def ofExcept (r : Except Fault α) : Run α := ⟨r, [], []⟩

def andThen (r : Run α) (next : α → Run β) : Run β :=
  match r.result with
  | .error f => ⟨.error f, r.invocations, r.log⟩
  | .ok a =>
    let s := next a
    ⟨s.result, r.invocations ++ s.invocations, r.log ++ s.log⟩

instance : Monad Run where
  pure a := ofExcept (.ok a)
  bind := andThen

def tell (e : Log.Entry) : Run PUnit := ⟨.ok ⟨⟩, [], [e]⟩

/-- Entries after all others, whatever the work came to. -/
def closing (entries : List Log.Entry) (r : Run α) : Run α := { r with log := r.log ++ entries }

/-- The work, with the faults that a batch goes on after as values. -/
def attempted (r : Run α) : Run (Except Fault α) :=
  match r.result with
  | .ok a => { r with result := .ok (.ok a) }
  | .error f => { r with result := if f.isInstanceFault then .ok (.error f) else .error f }

def isFaulty (r : Run α) : Bool := r.result matches .error _

/-- Pieces of work as one, given by their places in the order in which they were done. Of several faults
the first by place counts. -/
def gather (rs : List (Int × Run α)) : Run (List α) :=
  ⟨(Table.ofList rs).entries.mapM (·.2.result), rs.flatMap (·.2.invocations), rs.flatMap (·.2.log)⟩

/-- The work on each of some items, shared between workers. -/
def forEach (workers : Nat) (chance : Pool.Chance) (work : α → Run β) (items : List α) : Run (List β) :=
  gather (Pool.order workers chance (·.2.isFaulty) (items.zipIdx.map fun (a, n) => (Int.ofNat n, work a)))

@[simp] theorem result_pure (a : α) : (pure a : Run α).result = .ok a := rfl

@[simp] theorem invocations_ofExcept (r : Except Fault α) : (ofExcept r).invocations = [] := rfl

theorem result_bind (r : Run α) (next : α → Run β) :
    (r >>= next).result = r.result >>= fun a => (next a).result := by
  show (andThen r next).result = _
  unfold andThen
  cases r.result <;> rfl

end Run

/-- What answers a transaction on a state in a block, by the rules of a fork. -/
abbrev Machine := Json → Environment → WorldState → Transaction → Run Trace

namespace Tool

def source : Text := "evmtrace.tools.t8n.GethT8n"

def executing (workdir : Text) : Log.Entry := ⟨.debug, source, "Executing transaction in " ++ workdir⟩

/-- What is logged of an answer: a rejection, or the operands that a last return lacks. -/
def remarks (reason : Except Fault (Option Json)) (result : Except Fault Trace) : List Log.Entry :=
  match reason, result with
  | .ok (some reason), _ => [⟨.debug, source, "Transaction was rejected: " ++ reason.plain⟩]
  | _, .error (.missingOperands _ pc name count) =>
    [⟨.debug, "evmtrace.tools.reconstruction.TraceReconstructor",
      name.plain ++ " at pc=" ++ Text.ofInt pc ++ " has " ++ Text.ofNat count ++
        " stack operands, expected 2"⟩]
  | _, _ => []

def unlaunched (fault : ProcessFault) : Log.Entry :=
  ⟨.debug, source, "Could not query version: " ++ fault.message⟩

def keeping (workdir : Text) : Log.Entry :=
  ⟨.info, "evmtrace.tools.process", "Keeping working directory " ++ workdir⟩

end Tool

namespace Settings

/-- A run of the tool that has been prepared. -/
def execute [Limits] (s : Settings) (tool : Tool) (i : Invocation) : Run Trace :=
  let reply := tool.run i
  let result := s.read i reply
  let remarks := if reply.failure.isSome then [] else
    Tool.remarks (reply.workdir i >>= Reply.rejection i.workdir) result
  ⟨result, [i], Tool.executing i.workdir :: remarks⟩

/-- The machine that runs each transaction through the tool in a working directory of its own. -/
def machine [Limits] (s : Settings) (tool : Tool) (workdir : Text) : Machine := fun fork env pre tx =>
  Run.closing (if s.keepWorkdir.isGiven then [Tool.keeping workdir] else []) do
    s.execute tool (← Run.ofExcept (s.invocation workdir fork env pre tx))

/-- The version of the tool, or nothing if it cannot even be started. -/
def version (s : Settings) (tool : Tool) : Run (Option Text) :=
  match tool.version s.binary with
  | .ok version => pure (some (Text.trimmed version))
  | .error (.process (.launch program reason)) => do
    Run.tell (Tool.unlaunched (.launch program reason))
    return none
  | .error fault => Run.ofExcept (.error fault)

end Settings

end CallTrace
