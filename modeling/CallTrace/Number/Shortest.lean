import CallTrace.Number.Binary64
import CallTrace.Text.Basic

namespace CallTrace

/-- The number `digits * 10 ^ power`. -/
structure Decimal where
  digits : Nat
  power : Int
deriving DecidableEq, Inhabited

namespace Binary64

/-- Numerators, over one denominator, of a positive number and of the ends of the interval that rounds
to it. -/
structure Interval where
  low : Nat
  value : Nat
  high : Nat
  den : Nat
  closed : Bool

def intervalOf (m : Nat) (e : Int) : Interval :=
  let below := if m = twoPow 52 && leastExponent < e then 1 else 2
  let unit := if e < 2 then 1 else twoPow (e - 2).toNat
  ⟨(4 * m - below) * unit, 4 * m * unit, (4 * m + 2) * unit,
    if e < 2 then twoPow (2 - e).toNat else 1, m % 2 = 0⟩

/-- `n * 10 ^ power` over the denominator `den`, both sides multiplied alike to stay whole. -/
def Interval.holds (i : Interval) (n : Nat) (power : Int) : Bool :=
  let up := if power < 0 then 1 else tenPow power.toNat
  let down := if power < 0 then tenPow (-power).toNat else 1
  let x := n * up * i.den
  if i.closed then i.low * down ≤ x && x ≤ i.high * down
  else i.low * down < x && x < i.high * down

/-- The value in units of `10 ^ power`, as quotient, remainder and divisor. -/
def Interval.onGrid (i : Interval) (power : Int) : Nat × Nat × Nat :=
  let num := if power < 0 then i.value * tenPow (-power).toNat else i.value
  let den := if power < 0 then i.den else i.den * tenPow power.toNat
  (num / den, num % den, den)

/-- The point of the grid of `10 ^ power` that stands for the value, if one lies in the interval. -/
def Interval.point? (i : Interval) (power : Int) : Option Decimal :=
  let (q, r, d) := i.onGrid power
  match i.holds q power, i.holds (q + 1) power with
  | true, true =>
    some ⟨if 2 * r < d then q else if d < 2 * r then q + 1 else q + q % 2, power⟩
  | true, false => some ⟨q, power⟩
  | false, true => some ⟨q + 1, power⟩
  | false, false => none

/-- The power of ten of the leading digit. -/
def Interval.leading (i : Interval) : Int :=
  let guess : Int := (Int.ofNat i.value.log2 - Int.ofNat i.den.log2) * 30103 / 100000 - 1
  let fits (p : Int) : Bool := (i.onGrid p).1 < 10
  if fits guess then guess else if fits (guess + 1) then guess + 1 else guess + 2

/-- Drops zeros at the end of the digits. The first argument bounds how many. -/
def dropZeros : Nat → Decimal → Decimal
  | 0, x => x
  | n + 1, x => if x.digits % 10 = 0 && x.digits ≠ 0 then dropZeros n ⟨x.digits / 10, x.power + 1⟩ else x

def shortest (m : Nat) (e : Int) : Decimal :=
  if m = 0 then ⟨0, 0⟩
  else
    let i := intervalOf m e
    let p := i.leading
    let best := (List.range 17).findSome? fun n => i.point? (p - Int.ofNat n)
    dropZeros 20 (best.getD ⟨0, 0⟩)

end Binary64

/-- How a number is written once its digits are known. -/
structure Layout where
  notANumber : Text
  infinity : Text
  /-- Leading digits at powers of ten from here on are written without an exponent, -/
  positionalFrom : Int
  /-- as long as the power is below this one. -/
  positionalBelow : Int

namespace Layout

/-- Numbers inside messages. -/
def message : Layout := ⟨"nan", "inf", -4, 16⟩

/-- Numbers inside documents. -/
def document : Layout := ⟨"NaN", "Infinity", -4, 16⟩

def zeros (n : Nat) : Text := List.replicate n (.char '0')

def positional (ds : Text) (lead : Int) : Text :=
  if lead < 0 then "0." ++ zeros (-lead - 1).toNat ++ ds
  else
    let whole := lead.toNat + 1
    let front := ds.take whole ++ zeros (whole - ds.length)
    let back := ds.drop whole
    front ++ "." ++ (if back.isEmpty then "0" else back : Text)

def scientific (ds : Text) (lead : Int) : Text :=
  let power := Text.ofNat lead.natAbs
  ds.take 1 ++ (if ds.length ≤ 1 then [] else .char '.' :: ds.drop 1) ++
    (if lead < 0 then "e-" else "e+") ++ zeros (2 - power.length) ++ power

def magnitude (l : Layout) (x : Decimal) : Text :=
  let ds := Text.ofNat x.digits
  let lead := x.power + ds.length - 1
  if l.positionalFrom ≤ lead && lead < l.positionalBelow then positional ds lead else scientific ds lead

def signed (negative : Bool) (t : Text) : Text := if negative then .char '-' :: t else t

def render (l : Layout) : Binary64 → Text
  | .nan => l.notANumber
  | .infinite negative => signed negative l.infinity
  | .finite negative m e => signed negative (l.magnitude (Binary64.shortest m e))

end Layout

end CallTrace
