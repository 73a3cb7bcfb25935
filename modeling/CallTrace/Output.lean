import CallTrace.Fixture

namespace CallTrace

/-- Where the document for a file goes. -/
def outputPath (directory path : Text) (packed : Bool) : Text :=
  let path := Path.join directory path
  if packed then path ++ Fixture.packedSuffix else path

structure Output where
  path : Text
  packed : Bool
  isOpen : Bool := false

namespace Output

/-- What an action on a file comes to, and the files after it. -/
structure After (α : Type) where
  result : Except Fault α
  output : Output
  files : Files

/-- Opens the file, if it is not open, with nothing in it. If that fails, directories that were made on the
way to it stay. -/
def opened (o : Output) (fs : Files) : After Unit :=
  if o.isOpen then ⟨.ok (), o, fs⟩
  else
    let (made, fs) := fs.ensureWay (Files.way (Path.dirname o.path))
    match made, fs.write o.path [] o.packed with
    | .error f, _ | .ok (), .error f => ⟨.error f, o, fs⟩
    | .ok (), .ok fs => ⟨.ok (), { o with isOpen := true }, fs⟩

/-- Adds a text to what the file holds. -/
def added (o : Output) (fs : Files) (text : Text) : Except Fault Files := do
  if text.utf8?.isNone then throw .unencodable
  let (before, _) ← fs.contents o.path
  fs.write o.path (before ++ text) o.packed

/-- Adds a text to the file, and tells its length. A file that was opened for a text without octets stays
open. -/
def write (o : Output) (fs : Files) (text : Text) : After Nat :=
  let ready := o.opened fs
  match ready.result with
  | .error f => { ready with result := .error f }
  | .ok () =>
    match ready.output.added ready.files text with
    | .error f => { ready with result := .error f }
    | .ok fs => ⟨.ok text.length, ready.output, fs⟩

def close (o : Output) : Output := { o with isOpen := false }

def writeAll (o : Output) (fs : Files) : List Text → After (List Nat)
  | [] => ⟨.ok [], o, fs⟩
  | text :: texts =>
    let first := o.write fs text
    match first.result with
    | .error f => ⟨.error f, first.output, first.files⟩
    | .ok n =>
      let others := first.output.writeAll first.files texts
      { others with result := others.result.map (n :: ·) }

/-- Writes texts and closes the file, whether all could be written or not. -/
def session (o : Output) (fs : Files) (texts : List Text) : After (List Nat) :=
  let after := o.writeAll fs texts
  { after with output := after.output.close }

end Output

end CallTrace
