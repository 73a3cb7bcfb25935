import CallTrace.CommandLine.Misuse
import CallTrace.Text.DecimalDigit

namespace CallTrace

/-- How a flag was named: by one letter, behind which others may stand, or in full. -/
inductive Naming where
  | letter
  | full
deriving DecidableEq

inductive Word where
  | plain (s : Text)
  /-- A flag, with what is written behind its name in the same word. -/
  | flag (f : Flag) (naming : Naming) (value : Option Text)
  | unknown (s : Text)
  | separator
deriving DecidableEq

namespace Word

def separatorText : Text := "--"

def digits (t : Text) : Bool := t.all fun c => (Text.digitValue? c).isSome

/-- Digits, or a fraction with digits behind its point. -/
def isNumeral (t : Text) : Bool :=
  let (whole, fraction) := (t.takeWhile (· ≠ .char '.'), t.dropWhile (· ≠ .char '.'))
  digits whole &&
    match fraction with
    | [] => !whole.isEmpty
    | _ :: places => !places.isEmpty && digits places

def withoutLineEnd (t : Text) : Text := if t.getLast? = some (.char '\n') then t.dropLast else t

/-- Negative numbers are plain words. -/
def isNegative : Text → Bool
  | .char '-' :: t => isNumeral (withoutLineEnd t)
  | _ => false

/-- A word that looks like a flag and is none. -/
def unclear (s : Text) : Word := if isNegative s || s.contains ' ' then .plain s else .unknown s

/-- What stands before and after the first equals sign, if there is one. -/
def assigned (t : Text) : Text × Option Text :=
  (t.takeWhile (· ≠ .char '='), (t.dropWhile (· ≠ .char '=')).tail?)

def namingOf : Text → Naming
  | .char '-' :: .char '-' :: _ => .full
  | _ => .letter

/-- A word behind two hyphens that is no name: it may be short for one. -/
def long (s : Text) : Except Misuse Word :=
  let (name, value) := assigned s
  match Flag.abbreviatedBy name with
  | [(_, f)] => .ok (.flag f .full value)
  | [] => .ok (unclear s)
  | candidates => .error (.ambiguous s (candidates.map Prod.fst))

/-- A word behind one hyphen: its first letter may be a flag. -/
def short (s : Text) (letter : CodePoint) (rest : Text) : Word :=
  match Flag.lettered? letter with
  | some f => .flag f .letter (some rest)
  | none => unclear s

/-- A word that is not the name of a flag, with nothing or with a value behind an equals sign. -/
def nameless : Text → Except Misuse Word
  | .char '-' :: .char '-' :: t => long ('-' :: '-' :: t)
  | .char '-' :: c :: t => .ok (short ('-' :: c :: t) c t)
  | s => .ok (.plain s)

/-- The sort of a word before the separator. -/
def read (s : Text) : Except Misuse Word :=
  let (name, value) := assigned s
  match Flag.named? s, Flag.named? name with
  | some f, _ => .ok (.flag f (namingOf s) none)
  | none, some f => .ok (.flag f (namingOf s) value)
  | none, none => nameless s

def readAll : List Text → Except Misuse (List Word)
  | [] => .ok []
  | s :: ss => do
    if s = separatorText then return .separator :: ss.map .plain
    let word ← read s
    return word :: (← readAll ss)

end Word

end CallTrace
