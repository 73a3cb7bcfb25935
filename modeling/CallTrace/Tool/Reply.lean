import CallTrace.Output
import CallTrace.Reconstruction
import CallTrace.Text.Lines
import CallTrace.Tool.Invocation

namespace CallTrace

structure Reply where
  /-- Files by their paths from the working directory on. -/
  files : List (Text × Text)
  failure : Option Fault

structure Tool where
  /-- What a program of this name tells about its version. -/
  version : Json → Except Fault Text
  run : Invocation → Reply

/-- The time that the tool has for telling its version. -/
def Tool.versionTimeout : Json := .int 5

namespace Reply

/-- Where working directories are, unless their names say otherwise. -/
def top : Place := ["tmp"]

/-- An empty working directory. -/
def start (workdir : Text) : Except Fault Files :=
  let (made, fs) := Files.ensureWay ⟨FileTree.empty.put top .directory, top⟩ (Files.way workdir)
  made.map fun _ => fs

/-- Puts a file at a path below a directory. -/
def putFile (directory : Text) (fs : Files) (f : Text × Text) : Except Fault Files :=
  let o : Output := { path := Path.join directory f.1, packed := false }
  let after := o.session fs [f.2]
  after.result.map fun _ => after.files

/-- The working directory as the tool finds it. -/
def prepared (i : Invocation) : Except Fault Files := do
  let inputs := [(Invocation.envName, i.env), (Invocation.allocName, i.alloc), (Invocation.txsName, i.txs)]
  inputs.foldlM (putFile i.workdir) (← start i.workdir)

/-- What lies below it once the tool has put its files there. -/
def left (i : Invocation) (r : Reply) (fs : Files) : Except Fault FileTree := do
  let fs ← r.files.foldlM (putFile i.workdir) fs
  return ⟨fs.tree.below (← fs.locate i.workdir)⟩

/-- The working directory as the tool leaves it. -/
def workdir (i : Invocation) (r : Reply) : Except Fault FileTree := do r.left i (← prepared i)

/-- JSON that was to be in a file; what is no JSON ends the run. -/
def parsed (text : Text) : Except Fault Json :=
  match Json.read text with
  | .ok j => .ok j
  | .error .malformed => .error .notJson
  | .error .tooManyDigits => .error .unreadableNumber
  | .error .tooDeep => .error .tooDeep

/-- The reason in the first entry of a list of rejections, if there is one. -/
def firstReason (rejected : Json) : Except Fault (Option Json) := do
  match rejected.given? with
  | none => return none
  | some j =>
    match ← j.items with
    | [] => return none
    | entry :: _ => return (← entry.fieldOr "error" (.text "")).present?

/-- Why the transaction was rejected, if the result says so. -/
def rejection (directory : Text) (t : FileTree) : Except Fault (Option Json) := do
  match t.find? [Invocation.resultName] with
  | none => return none
  | some .directory => throw (.file (.isDirectory (Path.join directory Invocation.resultName)))
  | some (.file text _) => firstReason (← (← parsed text).fieldOr "rejected" .null)

def traceSuffix : Text := ".jsonl"

def isTraceName (place : Place) : Bool := place.getLast?.any (·.endsWith traceSuffix)

/-- Whatever bears the name of a trace, in order. -/
def traceEntries (t : FileTree) : List (Place × FileEntry) :=
  (t.entries.filter fun e => isTraceName e.1).mergeSort fun a b => Place.comesFirst a.1 b.1

def fileName (place : Place) : Text := place.getLastD []

/-- The text of the one trace. -/
def traceText (directory : Text) (t : FileTree) : Except Fault Text :=
  match traceEntries t with
  | [] => .error (.noTraceFile directory)
  | [(place, .file text _)] => if text.isEmpty then .error (.emptyTraceFile (fileName place)) else .ok text
  | [(place, .directory)] => .error (.file (.isDirectory (Path.join directory (Path.ofNames place))))
  | entries => .error (.severalTraceFiles (entries.map fun e => fileName e.1))

/-- The trace of a transaction that the tool rejected: it has no steps. -/
def rejected (reason : Json) : Except Fault Trace := do
  return .ended (← Outcome.ofRejection reason) []

def readTrace [Limits] (keep : Keep) (text : Text) : Except Fault Trace :=
  Reconstruction.ofLines keep ((Text.lines text).map .text)

end Reply

namespace Settings

/-- What the files of the working directory say of the transaction. -/
def conclude [Limits] (s : Settings) (directory : Text) (t : FileTree) : Except Fault Trace := do
  s.need "_find_rejection" .unsuited
  match ← Reply.rejection directory t with
  | some reason => Reply.rejected reason
  | none =>
    s.need "_find_trace_file" .unsuited
    Reply.readTrace (.ofJson s.stackSize) (← Reply.traceText directory t)

/-- A failure of the tool's process is told as one of the tool. -/
def failureOf (s : Settings) (i : Invocation) : Fault → Fault
  | .process fault => .tool s.binary i.fork fault
  | fault => fault

/-- The trace of a transaction by what the tool answered. The files of a tool that failed are not looked at. -/
def read [Limits] (s : Settings) (i : Invocation) (r : Reply) : Except Fault Trace := do
  let fs ← Reply.prepared i
  match r.failure with
  | some fault => throw (s.failureOf i fault)
  | none => s.conclude i.workdir (← r.left i fs)

end Settings

end CallTrace
