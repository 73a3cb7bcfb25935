import CallTrace.Number.Hexadecimal
import CallTrace.Number.Binary64
import CallTrace.Shell.Syntax

namespace CallTrace.Shell

/-- How the digits of a number are read. -/
inductive Base where
  | decimal
  /-- In eights behind a zero, in sixteens behind a zero and an x. -/
  | marked
deriving DecidableEq

namespace Numeral

def isSpace (c : CodePoint) : Bool := c = ' ' || c.isWithin '\t' '\r'

def isOctalDigit (c : CodePoint) : Bool := c.isWithin '0' '7'

def ofDigits (base : Nat) (t : Text) : Nat :=
  t.foldl (fun n c => n * base + (Number.hexDigitValue? c).getD 0) 0

/-- The number of the digits in front, and what stands behind them. -/
def digits? (base : Nat) (p : CodePoint → Bool) (t : Text) : Option (Nat × Text) :=
  let ds := t.takeWhile p
  if ds.isEmpty then none else some (ofDigits base ds, t.drop ds.length)

/-- The number that a text begins with, without a sign, and what stands behind it. -/
def unsigned? (base : Base) (t : Text) : Option (Nat × Text) :=
  match base, t with
  | .marked, .char '0' :: .char 'x' :: u | .marked, .char '0' :: .char 'X' :: u =>
    (digits? 16 Number.isHexDigit u).orElse fun _ => some (0, t.drop 1)
  | .marked, .char '0' :: _ => digits? 8 isOctalDigit t
  | _, _ => digits? 10 CodePoint.isDigit t

/-- The number that a text begins with behind blanks, and what stands behind it. -/
def signed? (base : Base) (t : Text) : Option (Int × Text) :=
  match t.dropWhile isSpace with
  | .char '-' :: u => (unsigned? base u).map fun (n, rest) => (-Int.ofNat n, rest)
  | .char '+' :: u => (unsigned? base u).map fun (n, rest) => (Int.ofNat n, rest)
  | u => (unsigned? base u).map fun (n, rest) => (Int.ofNat n, rest)

def greatest : Int := 0x7FFFFFFFFFFFFFFF

/-- Whether a number has room in 64 bits, one of them for its sign. -/
def hasRoom (n : Int) : Bool := -greatest - 1 ≤ n && n ≤ greatest

/-- The number that is nearest to another one among those that have room. -/
def clamped (n : Int) : Int := max (-greatest - 1) (min greatest n)

/-- The number that a text is, blanks around it aside. -/
def whole? (base : Base) (t : Text) : Option Int :=
  match signed? base t with
  | some (n, rest) => if hasRoom n && rest.all isSpace then some n else none
  | none => none

/-- The number that a text with nothing but digits in it is, if it is below some bound. -/
def count? (t : Text) : Option Nat :=
  match whole? .decimal t with
  | some n => if 0 ≤ n && n < 0x80000000 then some n.toNat else none
  | none => none

end Numeral

end CallTrace.Shell
