import CallTrace.CommandLine.Value
import CallTrace.Output
import CallTrace.Program.Console
import CallTrace.Program.Status

namespace CallTrace

structure Job where
  batch : Batch
  /-- The directory that documents go to; without one they are told. -/
  out : FlagValue Text
  packed : Bool
  pretty : Bool
  /-- Whether documents that are there already are left alone. -/
  incremental : Bool

namespace Job

/-- The file that the document for a path goes to. -/
def target (j : Job) (path : Text) : Except Fault (Option Output) := do
  return (← j.out.filled).map fun out => { path := outputPath out path j.packed, packed := j.packed }

def isDone (j : Job) (fs : Files) (o : Option Output) : Bool := j.incremental && o.any fun o => fs.holds o.path

/-- The document for a file as text, with the failures on the way to it. -/
def document [Limits] (j : Job) (fs : Files) (source : Text) : Run (Text × List Failure) := do
  let fixture ← Run.ofExcept (Fixture.load fs source)
  let c ← j.batch.convertFixture fixture
  return ((← Run.ofExcept c.document.writable).dump j.pretty, c.failures)

/-- Puts a document where it belongs. -/
def deliver (c : Console) (o : Option Output) (text : Text) : Except Fault Unit × Console :=
  match o with
  | none => c.tell (text ++ "\n")
  | some o =>
    let after := o.session c.files [text]
    (after.result.map fun _ => (), { c with files := after.files })

/-- Converts the file `source` for a file, or to tell its document. -/
def convertTo [Limits] (j : Job) (c : Console) (source : Text) (o : Option Output) :
    Except Fault Status × Console :=
  if j.isDone c.files o then (.ok .skipped, c)
  else
    let r := j.document c.files source
    let c := c.absorb r
    match r.result with
    | .error f => (.error f, c)
    | .ok (text, failures) =>
      let (delivered, c) := deliver c o text
      (delivered.map fun _ => .converted text.length failures, c)

/-- Converts the file `source`, which is known by `path` among those that belong together. -/
def convert [Limits] (j : Job) (c : Console) (source path : Text) : Except Fault Status × Console :=
  match j.target path with
  | .error f => (.error f, c)
  | .ok o => j.convertTo c source o

/-- A fault that is told, so the files after it are converted all the same. -/
def isTold (f : Fault) : Bool := f.isDomain || f.isFile

end Job

/-- A file to convert: where it lies, what it is known by, and what is told before its conversion. -/
structure Task where
  source : Text
  path : Text
  heading : Text := []

/-- How the files came out: how many of them failed, unless a fault ended the program. -/
structure Progress where
  console : Console
  failed : Except Fault Nat

namespace Progress

/-- The status that the program ends with. -/
def status (p : Progress) : Except Fault Nat := p.failed.map fun n => if n = 0 then 0 else 1

/-- Goes on after something was told, if it could be. -/
def after (told : Except Fault Unit × Console) (next : Console → Progress) : Progress :=
  match told.1 with
  | .ok _ => next told.2
  | .error f => ⟨told.2, .error f⟩

end Progress

/-- What is told of a file once it has been converted, or not. -/
abbrev Teller := Console → Task → Except Fault Status → Except Fault Unit × Console

namespace Teller

/-- The end of the line of a file. -/
def line : Except Fault Status → Text
  | .ok s => s.display ++ "\n"
  | .error f => Text.coloured .red (" [" ++ f.message ++ "]") ++ "\n"

def remarked (c : Console) (t : Task) : Except Fault Status → Console
  | .ok _ => c
  | .error _ =>
    c.warn (Log.render c.verbose [⟨.debug, "evmtrace.cli", "Conversion of " ++ t.path ++ " failed"⟩])

/-- For a directory all is told on the line of the file. -/
def inLine : Teller := fun c t result => (remarked c t result).tell (line result)

/-- For single files, whose documents may be told too, faults are told apart. -/
def apart : Teller := fun c t result =>
  (.ok (), match result with
    | .ok s => s.failures.foldl (fun c f => c.warnLine (Text.coloured .red f.display)) c
    | .error f => c.warnLine (Text.coloured .red (t.source ++ ": " ++ f.message)))

end Teller

namespace Job

/-- How many files have failed after one more; a fault that is not told counts for no file. -/
def tally (failed : Nat) : Except Fault Status → Except Fault Nat
  | .ok s => .ok (if s.isClean then failed else failed + 1)
  | .error f => if isTold f then .ok (failed + 1) else .error f

/-- Converts files one after the other, so many having failed before. -/
def convertAll [Limits] (j : Job) (tell : Teller) (c : Console) (failed : Nat) : List Task → Progress
  | [] => ⟨c, .ok failed⟩
  | t :: ts => .after (c.tell t.heading) fun c =>
    let (result, c) := j.convert c t.source t.path
    match tally failed result with
    | .error f => ⟨c, .error f⟩
    | .ok failed => .after (tell c t result) fun c => convertAll j tell c failed ts

def heading (index count : Nat) (path : Text) : Text :=
  Text.coloured .yellow ("(" ++ Text.ofNat index ++ "/" ++ Text.ofNat count ++ ") ") ++ path

def directoryTask (directory : Text) (count : Nat) (p : Text × Nat) : Task :=
  ⟨Path.join directory p.1, p.1, heading p.2 count p.1⟩

def directoryTasks (directory : Text) (paths : List Text) : List Task :=
  paths.zipIdx.map (directoryTask directory paths.length)

/-- A file named by an absolute path is known by its last name. -/
def fileTask (file : Text) : Task :=
  { source := file, path := if Path.isAbsolute file then Path.basename file else file }

/-- The fixtures below a directory that patterns in files select. -/
def findTasks (fs : Files) (directory includes excludes : FlagValue Text) : Except Fault (List Task) := do
  let includes ← Fixture.loadGlobs fs (← includes.filled) .defaultIncludes
  let excludes ← Fixture.loadGlobs fs (← excludes.filled) .defaultExcludes
  match ← directory.filled with
  | none => return []
  | some directory => return directoryTasks directory (← Fixture.find fs directory includes excludes)

/-- Converts all fixtures below a directory that the patterns select. -/
def convertDirectory [Limits] (j : Job) (c : Console) (directory includes excludes : FlagValue Text) :
    Progress :=
  match findTasks c.files directory includes excludes with
  | .error f => ⟨c, .error f⟩
  | .ok tasks => j.convertAll .inLine c 0 tasks

def convertFiles [Limits] (j : Job) (c : Console) (files : List Text) : Progress :=
  j.convertAll .apart c 0 (files.map fileTask)

end Job

end CallTrace
