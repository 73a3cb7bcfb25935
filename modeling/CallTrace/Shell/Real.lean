import CallTrace.Shell.Numeral

namespace CallTrace.Shell

inductive Real where
  | nan (isNegative : Bool)
  | infinite (isNegative : Bool)
  | ratio (isNegative : Bool) (num den : Nat)

namespace Real

def isNegative : Real → Bool
  | .nan b | .infinite b | .ratio b .. => b

/-- Exponents beyond this are as good as this one. -/
def greatestPower : Nat := 5000

/-- The power behind a mark for one, and what stands behind it. -/
def power (marks t : Text) : Int × Text :=
  match t with
  | c :: u =>
    let (isNegative, v) : Bool × Text := match u with
      | .char '-' :: v => (true, v)
      | .char '+' :: v => (false, v)
      | v => (false, v)
    match if marks.contains c then Numeral.digits? 10 CodePoint.isDigit v else none with
    | some (n, rest) => (if isNegative then -Int.ofNat (min n greatestPower) else min n greatestPower, rest)
    | none => (0, t)
  | [] => (0, t)

/-- Digits with a point among them: the number without the point, how many digits stand behind the point,
and the rest. -/
def digits? (base : Nat) (p : CodePoint → Bool) (t : Text) : Option (Nat × Nat × Text) :=
  let front := t.takeWhile p
  let rest := t.drop front.length
  let back : Text := match rest with
    | .char '.' :: u => u.takeWhile p
    | _ => []
  let rest : Text := match rest with
    | .char '.' :: u => if front.isEmpty && back.isEmpty then rest else u.drop back.length
    | _ => rest
  if front.isEmpty && back.isEmpty then none
  else some (Numeral.ofDigits base (front ++ back), back.length, rest)

def scaled (isNegative : Bool) (digits base : Nat) (power : Int) : Real :=
  if power < 0 then .ratio isNegative digits (Nat.pow base (-power).toNat)
  else .ratio isNegative (digits * Nat.pow base power.toNat) 1

/-- Letters as small ones. -/
def lowered (t : Text) : Text :=
  t.map fun c => if c.isWithin 'A' 'Z' then .ofNat (c.toNat + 32) else c

/-- The number that a text without a sign begins with, and what stands behind it. -/
def unsigned? (isNegative : Bool) (t : Text) : Option (Real × Text) :=
  let small := lowered t
  if small.startsWith "infinity" then some (.infinite isNegative, t.drop 8)
  else if small.startsWith "inf" then some (.infinite isNegative, t.drop 3)
  else if small.startsWith "nan" then some (.nan isNegative, t.drop 3)
  else
    match if small.startsWith "0x" then digits? 16 Number.isHexDigit (t.drop 2) else none with
    | some (n, places, rest) =>
      let (p, rest) := power "pP" rest
      some (scaled isNegative n 2 (p - 4 * Int.ofNat places), rest)
    | none =>
      (digits? 10 CodePoint.isDigit t).map fun (n, places, rest) =>
        let (p, rest) := power "eE" rest
        (scaled isNegative n 10 (p - Int.ofNat places), rest)

/-- The number that a text begins with behind blanks, and what stands behind it. -/
def read? (t : Text) : Option (Real × Text) :=
  match t.dropWhile Numeral.isSpace with
  | .char '-' :: u => unsigned? true u
  | .char '+' :: u => unsigned? false u
  | u => unsigned? false u

/-- The nearest number whose mantissa has so many bits. -/
def rounded (bits : Nat) : Real → Real
  | .ratio isNegative num den =>
    if num = 0 then .ratio isNegative 0 1
    else
      let e : Int := Int.ofNat num.log2 - Int.ofNat den.log2 - Int.ofNat bits
      let (n, d) := Binary64.inUnits num den e
      let e := if n / d < twoPow bits then e else e + 1
      let (n, d) := Binary64.inUnits num den e
      scaled isNegative (Binary64.roundDiv n d) 2 e
  | x => x

def zeros (n : Nat) : Text := List.replicate n (.char '0')

def withPoint (keepPoint : Bool) (front back : Text) : Text :=
  if back.isEmpty && !keepPoint then front else front ++ "." ++ back

/-- A fraction with so many digits behind the point. -/
def fixed (keepPoint : Bool) (places num den : Nat) : Text :=
  let ds := Text.ofNat (Binary64.roundDiv (num * tenPow places) den)
  let ds := zeros (places + 1 - ds.length) ++ ds
  withPoint keepPoint (ds.take (ds.length - places)) (ds.drop (ds.length - places))

/-- A fraction over a power of ten. -/
def overPower (num den : Nat) (power : Int) : Nat × Nat :=
  if power < 0 then (num * tenPow (-power).toNat, den) else (num, den * tenPow power.toNat)

/-- The power of ten of the first digit; zero has the power zero. -/
def leading (num den : Nat) : Int :=
  let guess : Int := Int.ofNat (Text.ofNat num).length - Int.ofNat (Text.ofNat den).length
  let (n, d) := overPower num den guess
  if num = 0 then 0 else if n < d then guess - 1 else guess

/-- The digits of a fraction, one of them in front of the point, and its power of ten. -/
def digitsAndPower (places num den : Nat) : Text × Int :=
  let lead := leading num den
  let (n, d) := overPower num den (lead - Int.ofNat places)
  let ds := Text.ofNat (Binary64.roundDiv n d)
  if num = 0 then (zeros (places + 1), 0)
  else if ds.length = places + 1 then (ds, lead)
  else (ds.take (places + 1), lead + 1)

def powerText (lead : Int) : Text :=
  let p := Text.ofNat lead.natAbs
  (if lead < 0 then "e-" else "e+") ++ zeros (2 - p.length) ++ p

def scientific (keepPoint : Bool) (places num den : Nat) : Text :=
  let (ds, lead) := digitsAndPower places num den
  withPoint keepPoint (ds.take 1) (ds.drop 1) ++ powerText lead

def withoutZeros (t : Text) : Text := (t.reverse.dropWhile (· = .char '0')).reverse

/-- So many digits in all, in the shorter one of both forms, and without zeros at their end. -/
def general (keepZeros : Bool) (size num den : Nat) : Text :=
  let size := max size 1
  let (ds, lead) := digitsAndPower (size - 1) num den
  let trim (t : Text) := if keepZeros then t else withoutZeros t
  if -4 ≤ lead && lead < size then
    let t := fixed keepZeros (Int.ofNat size - 1 - lead).toNat num den
    match t.splitOn (.char '.') with
    | [front, back] => withPoint keepZeros front (trim back)
    | _ => t
  else withPoint keepZeros (ds.take 1) (trim (ds.drop 1)) ++ powerText lead

/-- A fraction in sixteens, with a power of two. The first digit takes the bits that do not fill others. -/
def hexadecimal (keepPoint : Bool) (bits : Nat) (precision : Option Nat) (num den : Nat) : Text :=
  let places := (bits - 1) / 4
  let shift : Int := Int.ofNat bits - 1 + Int.ofNat den.log2 - Int.ofNat num.log2
  let (n, d) := Binary64.inUnits num den (-shift)
  let shift := if n / d < twoPow (bits - 1) then shift + 1 else shift
  let (n, d) := Binary64.inUnits num den (-shift)
  let mantissa := if num = 0 then 0 else n / d
  let power : Int := if num = 0 then 0 else Int.ofNat (4 * places) - shift
  let kept := precision.getD places
  let digits :=
    if kept < places then Binary64.roundDiv mantissa (twoPow (4 * (places - kept)))
    else mantissa * twoPow (4 * (kept - places))
  let ds := Number.hexPadded (kept + 1) digits
  let back := ds.drop (ds.length - kept)
  let back := if precision.isSome then back else withoutZeros back
  "0x" ++ withPoint keepPoint (ds.take (ds.length - kept)) back ++ (if power < 0 then "p-" else "p+") ++
    Text.ofNat power.natAbs

/-- The size of a number in the form that a letter names. -/
def form (letter : CodePoint) (keepPoint : Bool) (bits : Nat) (precision : Option Nat) : Real → Text
  | .nan _ => "nan"
  | .infinite _ => "inf"
  | .ratio _ num den =>
    let places := precision.getD 6
    if letter = 'a' then hexadecimal keepPoint bits precision num den
    else if letter = 'f' then fixed keepPoint places num den
    else if letter = 'e' then scientific keepPoint places num den
    else general keepPoint places num den

end Real

end CallTrace.Shell
