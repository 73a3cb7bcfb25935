import CallTrace.Hex.Octets
import CallTrace.Json.Access
import CallTrace.Limits

namespace CallTrace.Hex

def decodeQuantity (s : Text) : Except Fault Int := do
  match ← digits s with
  | [] => .ok 0
  | [.char '\n'] => .error .lineEndAsQuantity
  | ds => .ok (Int.ofNat (Number.ofHexDigits (ds.filter (· ≠ .char '\n'))))

/-- A quantity is a number already, or its digits. -/
def quantity : Json → Except Fault Int
  | .int n => .ok n
  | j => text j >>= decodeQuantity

/-- The fewest digits of an even count, at least two. -/
def evenDigits (n : Nat) : Text :=
  let ds := Number.hexDigits n
  if ds.length % 2 = 1 then .char '0' :: ds else ds

def bitLength (n : Nat) : Nat := if n = 0 then 0 else n.log2 + 1

def encodeQuantity (n : Int) : Except Fault Text :=
  if n < 0 then .error (.negativeValue (.int n)) else .ok (marked (evenDigits n.toNat))

/-- A number as exactly so many octets. -/
def encodeWord (width : Int) (n : Int) : Except Fault Text :=
  if n < 0 then .error (.negativeValue (.int n))
  else if width * 8 < bitLength n.toNat then .error (.valueTooLarge n.toNat (.int width))
  else if greatestCount < width * 2 then .error .widthTooLarge
  else .ok (marked (Number.hexPadded (width * 2).toNat n.toNat))

/-- The fault of writing a number with a fraction in hexadecimal digits. -/
def fractionFault (x : Binary64) : Json → Fault
  | width =>
    if (Number.real x).isBelow .zero then .negativeValue (.real x)
    else match width with
      | .null => .unreadableNumber
      | _ => .noFields

/-- A number in a width of any sort; null stands for as many octets as it takes. -/
def encodeIn [Limits] (width : Json) (n : Int) : Except Fault Text := do
  match width with
  | .null => encodeQuantity n
  | width =>
    if n < 0 then throw (.negativeValue (.int n))
    match ← width.toNumber with
    | .whole w =>
      if w * 2 ≤ greatestCount && !Limits.admitsOctets (w * 2).toNat then throw .outOfMemory
      encodeWord w n
    | .real w =>
      if w.extent?.any (·.isBelow (.fraction (bitLength n.toNat) 8)) then throw (.valueTooLarge n.toNat width)
      else throw .unreadableNumber

/-- A value of any sort as hexadecimal text. -/
def encodeValue [Limits] (width value : Json) : Except Fault Text := do
  match ← value.toNumber with
  | .whole n => encodeIn width n
  | .real x => throw (fractionFault x width)

def addressWidth : Int := 20

def wordWidth : Int := 32

def encodeAddress (n : Int) : Except Fault Text := encodeWord addressWidth n

def encodeWord32 (n : Int) : Except Fault Text := encodeWord wordWidth n

end CallTrace.Hex
