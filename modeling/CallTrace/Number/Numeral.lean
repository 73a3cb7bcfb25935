import CallTrace.Text.Blank
import CallTrace.Text.DecimalDigit
import CallTrace.Number.Basic

namespace CallTrace.Number

/-- White space around a number; the separators among the control characters do not count. -/
def isBlank (c : CodePoint) : Bool := Text.isBlank c && !(0x1C ≤ c.toNat && c.toNat ≤ 0x1F)

/-- Digits with single underscores between them. -/
def digitRun? : Text → Option (List Nat)
  | [] => none
  | [c] => (Text.digitValue? c).map ([·])
  | c :: .char '_' :: t => do return (← Text.digitValue? c) :: (← digitRun? t)
  | c :: t => do return (← Text.digitValue? c) :: (← digitRun? t)

def ofDigits (ds : List Nat) : Nat := ds.foldl (fun n d => n * 10 + d) 0

/-- A sign, if there is one, and what follows it. -/
def splitSign : Text → Bool × Text
  | .char '-' :: t => (true, t)
  | .char '+' :: t => (false, t)
  | t => (false, t)

def withSign (negative : Bool) (n : Nat) : Int := if negative then -Int.ofNat n else Int.ofNat n

def integer? (t : Text) : Option Int := do
  let (negative, body) := splitSign (Text.trimBy isBlank t)
  let ds ← digitRun? body
  if ds.length ≤ maxDigits then some (withSign negative (ofDigits ds)) else none

/-- Digits that may be missing altogether. -/
def digitRunOrNone? (t : Text) : Option (List Nat) := if t.isEmpty then some [] else digitRun? t

def exponent? (t : Text) : Option Int := do
  let (negative, body) := splitSign t
  return withSign negative (ofDigits (← digitRun? body))

/-- The digits before and after the point, and the power of ten behind an `e`. -/
def parts (t : Text) : Text × Option Text × Option Text :=
  let isMark (c : CodePoint) : Bool := c = 'e' || c = 'E'
  let body := t.takeWhile (!isMark ·)
  let power := (t.dropWhile (!isMark ·)).tail?
  (body.takeWhile (· ≠ .char '.'), (body.dropWhile (· ≠ .char '.')).tail?, power)

def magnitude? (negative : Bool) (t : Text) : Option Binary64 := do
  let (before, behind, power) := parts t
  let ws ← digitRunOrNone? before
  let fs ← digitRunOrNone? (behind.getD [])
  let p ← power.elim (some 0) exponent?
  if ws.isEmpty && fs.isEmpty then none
  else some (.ofDecimal negative (ofDigits (ws ++ fs)) (p - Int.ofNat fs.length))

/-- A code point with ASCII letters in lower case. -/
def small : CodePoint → CodePoint
  | .char c => .char c.toLower
  | c => c

def real? (t : Text) : Option Binary64 :=
  let (negative, body) := splitSign (Text.trimBy isBlank t)
  let word : Text := body.map small
  if word = "nan" then some .nan
  else if word = "inf" || word = "infinity" then some (.infinite negative)
  else magnitude? negative body

end CallTrace.Number
