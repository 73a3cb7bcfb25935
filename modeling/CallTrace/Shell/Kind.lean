import CallTrace.FileTree

namespace CallTrace.Shell

inductive Kind where
  | file (size : Nat)
  | directory
  | device
  | program
deriving DecidableEq

namespace Kind

/-- The names of the shell as a program. -/
def shells : List Text := ["bash", "dash", "sh"]

/-- The programs that can be started. -/
def programs : List Text := shells ++ Text.split ' '
  ("[ basename cat cut dirname echo env false grep head ls mkdir printenv printf rm seq sleep sort tail tee " ++
    "test touch tr true uniq wc yes" : String)

def programPlaces : List Place := [["bin"], ["usr", "bin"]]

/-- Whether a program lies at a place. -/
def isProgramPlace (p : Place) : Bool :=
  p.dropLast ∈ programPlaces && p.getLast?.any (Text.isOneOf · programs)

def devices : List Text := ["full", "null", "random", "stderr", "stdin", "stdout", "tty", "urandom", "zero"]

def devicePlace : Place := [("dev" : Text)]

/-- The place of the streams of a process. -/
def streamPlace : Place := Text.split ' ' "dev fd"

/-- What lies where a path leads. -/
def ofPath (fs : Files) (path : Text) : Except FileFault Kind := do
  let p ← fs.place path
  if isProgramPlace p then return .program
  if p.dropLast = devicePlace && p.getLast?.any (Text.isOneOf · devices) then return .device
  if p.dropLast = streamPlace && p.getLast?.any (Text.isOneOf · ["0", "1", "2"]) then return .device
  match fs.tree.find? p with
  | some (.file t _) => return .file t.length
  | some .directory => return .directory
  | none => throw (.missing path)

end Kind

end CallTrace.Shell
