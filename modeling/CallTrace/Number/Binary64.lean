namespace CallTrace

inductive Binary64 where
  | nan
  | infinite (negative : Bool)
  | finite (negative : Bool) (mantissa : Nat) (exponent : Int)
deriving DecidableEq, Inhabited

def twoPow (n : Nat) : Nat := Nat.pow 2 n

def tenPow (n : Nat) : Nat := Nat.pow 10 n

namespace Binary64

def leastExponent : Int := -1074

def greatestExponent : Int := 971

def zero : Binary64 := .finite false 0 leastExponent

/-- The quotient rounded to the nearest natural number, a half to the even one. -/
def roundDiv (num den : Nat) : Nat :=
  let q := num / den
  let r := num % den
  if 2 * r < den then q else if den < 2 * r then q + 1 else q + q % 2

/-- `num / den` in units of `2 ^ e`, as a fraction. -/
def inUnits (num den : Nat) (e : Int) : Nat × Nat :=
  if e < 0 then (num * twoPow (-e).toNat, den) else (num, den * twoPow e.toNat)

/-- The exponent whose mantissa has 53 bits, or the least exponent. -/
def exponentFor (num den : Nat) : Int :=
  let e : Int := Int.ofNat num.log2 - Int.ofNat den.log2 - 53
  let (n, d) := inUnits num den e
  max (if n / d < twoPow 53 then e else e + 1) leastExponent

def ofMantissa (negative : Bool) (m : Nat) (e : Int) : Binary64 :=
  if m = twoPow 53 then
    if e < greatestExponent then .finite negative (twoPow 52) (e + 1) else .infinite negative
  else if greatestExponent < e then .infinite negative
  else .finite negative m e

def ofRatio (negative : Bool) (num den : Nat) : Binary64 :=
  if num = 0 then .finite negative 0 leastExponent
  else
    let e := exponentFor num den
    let (n, d) := inUnits num den e
    ofMantissa negative (roundDiv n d) e

/-- The number nearest to `digits * 10 ^ power`. -/
def ofDecimal (negative : Bool) (digits : Nat) (power : Int) : Binary64 :=
  if digits = 0 then .finite negative 0 leastExponent
  else
    let size : Int := (Nat.toDigits 10 digits).length + power
    if 310 < size then .infinite negative
    else if size < -330 then .finite negative 0 leastExponent
    else if power < 0 then ofRatio negative digits (tenPow (-power).toNat)
    else ofRatio negative (digits * tenPow power.toNat) 1

/-- The number nearest to an integer; `none` if the integer is beyond all finite ones. -/
def ofInt? (n : Int) : Option Binary64 :=
  match ofRatio (n < 0) n.natAbs 1 with
  | .infinite _ => none
  | x => some x

/-- The integer part, toward zero; `none` if there is none. -/
def truncate? : Binary64 → Option Int
  | .finite negative m e =>
    let size := if e < 0 then m / twoPow (-e).toNat else m * twoPow e.toNat
    some (if negative then -Int.ofNat size else Int.ofNat size)
  | _ => none

def isZero : Binary64 → Bool
  | .finite _ m _ => m = 0
  | _ => false

/-- Whether the number is exactly this integer. -/
def isInt (x : Binary64) (n : Int) : Bool :=
  match x with
  | .finite _ m e =>
    (x.truncate? = some n) && (0 ≤ e || m % twoPow (-e).toNat = 0)
  | _ => false

/-- Equality as values: the two zeros are one, and what is not a number equals itself. -/
def same (x y : Binary64) : Bool := x = y || (x.isZero && y.isZero)

end Binary64

end CallTrace
