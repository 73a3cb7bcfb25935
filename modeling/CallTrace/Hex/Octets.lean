import CallTrace.Fault
import CallTrace.Number.Hexadecimal

namespace CallTrace.Hex

/-- Drops one mark, `0x` or `0X`, in front of the digits. -/
def unmark : Text → Text
  | .char '0' :: .char 'x' :: t => t
  | .char '0' :: .char 'X' :: t => t
  | t => t

/-- Hexadecimal digits alone, but for one line end that may follow them. -/
def isDigits : Text → Bool
  | [] => true
  | [.char '\n'] => true
  | c :: t => Number.isHexDigit c && isDigits t

/-- What stands behind the mark of a text that holds hexadecimal digits. -/
def digits (s : Text) : Except Fault Text :=
  let ds := unmark s
  if isDigits ds then .ok ds else .error (.badHexDigits s)

def octet? (high low : CodePoint) : Option UInt8 := do
  return UInt8.ofNat (16 * (← Number.hexDigitValue? high) + (← Number.hexDigitValue? low))

/-- Octets from pairs of digits, after those read so far, last one first. -/
def ofPairs? (done : Octets) : Text → Option Octets
  | [] => some done.reverse
  | high :: low :: t =>
    match octet? high low with
    | some b => ofPairs? (b :: done) t
    | none => none
  | [_] => none

def decode (s : Text) : Except Fault Octets := do
  let ds ← digits s
  if ds.length % 2 = 1 then .error (.oddHexDigits s)
  else (ofPairs? [] ds).elim (.error .lineEndInOctets) .ok

/-- The text of a value that has to be one. -/
def text : Json → Except Fault Text
  | .text s => .ok s
  | j => .error (.notHexText j.sort)

def octets (j : Json) : Except Fault Octets := text j >>= decode

def pair (b : UInt8) : Text := Number.hexPadded 2 b.toNat

def pairs (bs : Octets) : Text := bs.flatMap pair

def marked (t : Text) : Text := .char '0' :: .char 'x' :: t

def encode (bs : Octets) : Text := marked (pairs bs)

theorem hexPadded_two :
    ∀ n < 256, Number.hexPadded 2 n = [.char (n / 16).digitChar, .char (n % 16).digitChar] := by
  decide +kernel

theorem pair_eq (b : UInt8) :
    pair b = [.char (b.toNat / 16).digitChar, .char (b.toNat % 16).digitChar] :=
  hexPadded_two b.toNat b.toNat_lt

theorem pair_length (b : UInt8) : (pair b).length = 2 := by simp [pair_eq]

theorem octet?_pair (b : UInt8) :
    octet? (.char (b.toNat / 16).digitChar) (.char (b.toNat % 16).digitChar) = some b := by
  have h := b.toNat_lt
  unfold octet?
  rw [Number.hexDigitValue?_digitChar _ (by omega), Number.hexDigitValue?_digitChar _ (by omega)]
  show some (UInt8.ofNat (16 * (b.toNat / 16) + b.toNat % 16)) = some b
  rw [Nat.div_add_mod, UInt8.ofNat_toNat]

end CallTrace.Hex
