import CallTrace.Glob
import CallTrace.Shell.Syntax

namespace CallTrace.Shell

structure Letter where
  point : CodePoint
  isQuoted : Bool

abbrev Pattern := List Letter

/-- Whether a letter is this sign and means something. -/
def Letter.isSign (l : Letter) (c : Char) : Bool := !l.isQuoted && l.point = c

namespace Pattern

def text (p : Pattern) : Text := p.map Letter.point

def ofText (isQuoted : Bool) (t : Text) : Pattern := t.map fun c => ⟨c, isQuoted⟩

/-- Classes of code points that have a name, as ranges. -/
def classes : List (Text × List (CodePoint × CodePoint)) :=
  let range (low high : Char) : CodePoint × CodePoint := (low, high)
  let digits := [range '0' '9']
  let capitals := [range 'A' 'Z']
  let smalls := [range 'a' 'z']
  let marks := [range '!' '/', range ':' '@', range '[' '\x60', range '\x7b' '~']
  [("alnum", digits ++ capitals ++ smalls), ("alpha", capitals ++ smalls),
    ("blank", [range ' ' ' ', range '\t' '\t']), ("cntrl", [range '\x00' '\x1f', range '\x7f' '\x7f']),
    ("digit", digits), ("graph", [range '!' '~']), ("lower", smalls), ("print", [range ' ' '~']),
    ("punct", marks), ("space", [range ' ' ' ', range '\t' '\r']), ("upper", capitals),
    ("xdigit", digits ++ [range 'A' 'F', range 'a' 'f'])]

/-- The ranges of the class that is named behind a bracket, and how many letters the name takes with its
marks. -/
def class? (p : Pattern) : Option (List (CodePoint × CodePoint) × Nat) :=
  classes.findSome? fun c =>
    let mark := (":" : Text) ++ c.1 ++ ":]"
    if (text p).startsWith mark then some (c.2, mark.length) else none

/-- The ranges between brackets and how many letters stand there, so many letters being passed over. The
first letter is inside whatever it is. -/
def members (passed taken : Nat) (done : List (CodePoint × CodePoint)) :
    Pattern → Option (List (CodePoint × CodePoint) × Nat)
  | [] => none
  | c :: cs =>
    if 0 < passed then members (passed - 1) (taken + 1) done cs
    else if c.isSign ']' && 0 < taken then some (done, taken)
    else
      match if c.isSign '[' then class? cs else none with
      | some (ranges, n) => members n (taken + 1) (ranges ++ done) cs
      | none =>
        match cs with
        | hyphen :: high :: _ =>
          if hyphen.isSign '-' && !high.isSign ']' then
            members 2 (taken + 1) ((c.point, high.point) :: done) cs
          else members 0 (taken + 1) ((c.point, c.point) :: done) cs
        | _ => members 0 (taken + 1) ((c.point, c.point) :: done) cs

/-- The token for what stands between brackets, and how many letters it takes with the closing one. -/
def brackets? (p : Pattern) : Option (Glob.Token × Nat) :=
  let negated := p.head?.any (·.isSign '!')
  (members 0 0 [] (if negated then p.drop 1 else p)).map fun (ranges, n) =>
    (.oneOf negated ranges, n + if negated then 2 else 1)

/-- The tokens of a pattern, so many letters of it being passed over. -/
def tokens (passed : Nat) : Pattern → List Glob.Token
  | [] => []
  | c :: cs =>
    if 0 < passed then tokens (passed - 1) cs
    else if c.isSign '*' then .anyText :: tokens 0 cs
    else if c.isSign '?' then .anyChar :: tokens 0 cs
    else if c.isSign '\\' then
      match cs with
      | d :: _ => .char d.point :: tokens 1 cs
      | [] => [.char '\\']
    else
      match if c.isSign '[' then brackets? cs else none with
      | some (token, n) => token :: tokens n cs
      | none => .char c.point :: tokens 0 cs

def accepts (p : Pattern) (t : Text) : Bool := Glob.accepts (tokens 0 p) t

/-- A text without what a pattern accepts at one of its sides. -/
def cut (p : Pattern) (side : Side) (longest : Bool) (t : Text) : Text :=
  let ts := tokens 0 p
  let sizes := List.range (t.length + 1)
  let sizes := if longest then sizes.reverse else sizes
  match side with
  | .front =>
    match sizes.find? fun n => Glob.accepts ts (t.take n) with
    | some n => t.drop n
    | none => t
  | .back =>
    match sizes.find? fun n => Glob.accepts ts (t.drop (t.length - n)) with
    | some n => t.take (t.length - n)
    | none => t

end Pattern

end CallTrace.Shell
