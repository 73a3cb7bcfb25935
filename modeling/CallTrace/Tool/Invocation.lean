import CallTrace.Environment
import CallTrace.Json.Writer
import CallTrace.Path
import CallTrace.Settings.Basic
import CallTrace.Transaction.Document

namespace CallTrace

structure Invocation where
  fork : Json
  workdir : Text
  command : List Json
  timeout : Json
  env : Text
  alloc : Text
  txs : Text

namespace Invocation

def envName : Text := "env.json"

def allocName : Text := "alloc.json"

def txsName : Text := "txs.json"

def resultName : Text := "result.json"

def commandFor (binary fork : Json) (workdir : Text) : List Json := [
  binary, .text "t8n", .text "--state.fork", fork, .text "--trace", .text "--trace.memory",
  .text "--input.env", .text (Path.join workdir envName), .text "--input.alloc",
  .text (Path.join workdir allocName), .text "--input.txs", .text (Path.join workdir txsName),
  .text "--output.basedir", .text workdir, .text "--output.alloc", .text "alloc-out.json",
  .text "--output.result", .text resultName]

/-- A transaction with its signature left blank, for the tool to sign. -/
def unsigned (tx : Transaction) : Except Fault Json := do
  return .list [.object (Fields.concat [
    ← tx.toFields, [("v", .text ""), ("r", .text ""), ("s", .text "")]])]

/-- A document as a file holds it. -/
def document (j : Json) : Except Fault Text := return (← j.writable).compact

end Invocation

namespace Settings

/-- The command that runs the tool by the rules of a fork. -/
def command (s : Settings) (fork : Json) (workdir : Text) : Except Fault (List Json) := do
  s.need "build_command" .unsuited
  return Invocation.commandFor s.binary fork workdir

/-- The invocation for a transaction, if its parts can be written. -/
def invocation (s : Settings) (workdir : Text) (fork : Json) (env : Environment) (pre : WorldState)
    (tx : Transaction) : Except Fault Invocation := do
  s.need "run_transaction" .unsuited
  s.need "write_inputs" .unsuited
  let env ← env.toToolJson >>= Invocation.document
  let alloc ← WorldState.toJson pre >>= Invocation.document
  let txs ← Invocation.unsigned tx >>= Invocation.document
  let command ← s.command fork workdir
  s.need "logger" .noFields
  return ⟨fork, workdir, command, s.timeout, env, alloc, txs⟩

end Settings

end CallTrace
