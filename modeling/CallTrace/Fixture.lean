import CallTrace.FileTree
import CallTrace.Glob
import CallTrace.Json.Reader

namespace CallTrace.Fixture

def packedSuffix : Text := ".gz"

def isPackedName (path : Text) : Bool := path.endsWith packedSuffix

/-- The paths of all files below a directory, from there on. What is no directory has none. -/
def filesBelow (fs : Files) (directory : Text) : Except Fault (List Text) := do
  let _ ← Path.octets directory
  return match fs.locate directory with
    | .error _ => []
    | .ok p =>
      match fs.tree.find? p with
      | some .directory =>
        (fs.tree.below p).filterMap fun (names, e) =>
          match e with
          | .file .. => some (Path.ofNames names)
          | .directory => none
      | _ => []

def isSelected (includes excludes : GlobSet) (path : Text) : Bool :=
  includes.holds path && !excludes.holds path

/-- The paths of the fixtures below a directory, in order. -/
def find (fs : Files) (directory : Text) (includes excludes : GlobSet) : Except Fault (List Text) := do
  return (Text.sorted (← filesBelow fs directory)).filter (isSelected includes excludes)

def fileText (fs : Files) (path : Text) : Except Fault Text :=
  if isPackedName path then fs.readPacked path
  else match fs.readPlain path with
    | .ok text => .ok text
    | .error (.file (.unreadable _)) => .error (.notDocument path)
    | .error f => .error f

def load (fs : Files) (path : Text) : Except Fault Json := do
  match Json.read (← fileText fs path) with
  | .ok j => return j
  | .error .tooDeep => throw .tooDeep
  | .error _ => throw (.notDocument path)

/-- The patterns in a file, or the default if no file is named. -/
def loadGlobs (fs : Files) (path : Option Text) (default : GlobSet) : Except Fault GlobSet :=
  match path with
  | none => .ok default
  | some path => (fs.readPlain path).map GlobSet.ofText

end CallTrace.Fixture
