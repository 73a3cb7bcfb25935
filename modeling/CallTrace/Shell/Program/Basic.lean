import CallTrace.Shell.Quoting
import CallTrace.Shell.State

namespace CallTrace.Shell

/-- A program: what it does with its arguments, and its status. -/
abbrev Program := List Text → Action Nat

namespace Program

def write (t : Text) : Action PUnit := do
  let _ ← Action.emit 1 t

/-- Tells what is wrong, behind the name by which the program was started. -/
def complain (t : Text) : Action PUnit := do
  Action.tell ((← get).name ++ ": " ++ t ++ "\n")

/-- Where the right use of a program is told. -/
def tellHint : Action PUnit := do
  Action.tell ("Try '" ++ (← get).name ++ " --help' for more information.\n")

/-- Tells how a program was misused, and has its status. -/
def misuse (t : Text) (status : Nat) : Action Nat := do
  complain t
  tellHint
  return status

/-- A name in front of a colon. -/
def inLine (name : Text) : Text :=
  if name.contains (CodePoint.char ':') && Quoting.isPlain name then "'" ++ name ++ "'" else Quoting.forShell name

/-- A name, always in quotes. -/
def always (name : Text) : Text :=
  let t := Quoting.forShell name
  if t = name then "'" ++ t ++ "'" else t

/-- Why a file does not serve, as programs say it. -/
def reason : FileFault → Text
  | .missing _ => "No such file or directory"
  | .present _ => "File exists"
  | .isDirectory _ => "Is a directory"
  | .notDirectory _ => "Not a directory"
  | .forbidden _ => "Permission denied"
  | .tooLong _ => "File name too long"
  | _ => "Invalid argument"

/-- Text that goes on for ever. -/
def writeForever (t : Text) : Action α := do
  match ← Action.stream? 1 with
  | some (.sink n) => Action.onMachine fun m => { m with tails := (n, .again t) :: m.tails }
  | _ => pure ⟨⟩
  throw .stuck

/-- What can be read under a name, a hyphen being what the program is given. -/
def source (name : Text) : Action (Except FileFault Feed) := do
  if name = "-" then
    match ← Action.stream? 0 with
    | some (.source n) =>
      let s := (← get).machine.source n
      Action.onMachine (·.setSource n { s with text := [], tail := .ending })
      Action.waitUntil s.ready
      return .ok s
    | _ => return .ok { text := [] }
  match Kind.ofPath (← Action.files) name with
  | .error f => return .error f
  | .ok .directory => return .error (.isDirectory name)
  | .ok _ =>
    match ← Action.openToRead name with
    | .ok (.source n) => return .ok ((← get).machine.source n)
    | _ => return .ok { text := [] }

/-- All that can be read under a name; it may never end. -/
def contents (name : Text) : Action (Except FileFault Text) := do
  match ← source name with
  | .error f => return .error f
  | .ok s =>
    match s.all? with
    | some t => return .ok t
    | none => throw .stuck

/-- The options among the arguments of a program, by letter, with what belongs to those that take something;
and the other arguments. -/
structure Options where
  given : List (CodePoint × Text)
  operands : List Text

/-- The letters of an argument, and a letter at its end that still takes something. -/
def letters (flags valued : Text) : Text → Except Text (List (CodePoint × Text) × Option CodePoint)
  | [] => .ok ([], none)
  | c :: t =>
    if valued.contains c then if t.isEmpty then .ok ([], some c) else .ok ([(c, t)], none)
    else if flags.contains c then (letters flags valued t).map fun (more, last) => ((c, []) :: more, last)
    else .error ("invalid option -- '" ++ [c] ++ "'")

def options (flags valued : Text) : List Text → Except Text Options
  | [] => .ok ⟨[], []⟩
  | arg :: args =>
    if arg = "--" then .ok ⟨[], args⟩
    else if arg.startsWith "--" then .error ("unrecognized option '" ++ arg ++ "'")
    else if arg.startsWith "-" && arg ≠ "-" then do
      let (given, last) ← letters flags valued (arg.drop 1)
      match last, args with
      | none, args =>
        let o ← options flags valued args
        return ⟨given ++ o.given, o.operands⟩
      | some c, value :: args =>
        let o ← options flags valued args
        return ⟨given ++ (c, value) :: o.given, o.operands⟩
      | some c, [] => throw ("option requires an argument -- '" ++ [c] ++ "'")
    else do
      let o ← options flags valued args
      return ⟨o.given, arg :: o.operands⟩

def Options.has (o : Options) (c : Char) : Bool := o.given.any (·.1 = .char c)

def Options.value? (o : Options) (c : Char) : Option Text := (o.given.reverse.find? (·.1 = .char c)).map (·.2)

/-- The name of nothing but what a program is given. -/
def alone : List Text := ["-"]

/-- The names that a program reads. -/
def Options.names (o : Options) : List Text := if o.operands.isEmpty then alone else o.operands

/-- Runs a program on its options. -/
def withOptions (flags valued : Text) (args : List Text) (f : Options → Action Nat)
    (status : Nat) : Action Nat :=
  match options flags valued args with
  | .error t => misuse t status
  | .ok o => f o

/-- The lines of a text, each with its end. -/
def lines (t : Text) : List Text :=
  let parts := t.split '\n'
  let whole := parts.dropLast.map fun part => part ++ Text.ofString "\n"
  match parts.getLast? with
  | some [] | none => whole
  | some last => whole ++ [last]

end Program

end CallTrace.Shell
