import CallTrace.Text.Basic

namespace CallTrace

abbrev Octets := List UInt8

namespace Text

/-- Where the machine stands: between characters, or inside one. -/
inductive Utf8State where
  | start
  | owed (more : Nat) (low high : UInt8) (point : Nat)

/-- Whether the code points of surrogates are read; no character has them. -/
abbrev Surrogates := Bool

/-- The machine after the first octet of a character; `none` if no character starts with it. -/
def leadOctet (surrogates : Surrogates) (b : UInt8) : Option Utf8State :=
  if 0xC2 ≤ b && b ≤ 0xDF then some (.owed 0 0x80 0xBF (b.toNat % 32))
  else if b = 0xE0 then some (.owed 1 0xA0 0xBF 0)
  else if b = 0xED then some (.owed 1 0x80 (if surrogates then 0xBF else 0x9F) 13)
  else if 0xE1 ≤ b && b ≤ 0xEF then some (.owed 1 0x80 0xBF (b.toNat % 16))
  else if b = 0xF0 then some (.owed 2 0x90 0xBF 0)
  else if 0xF1 ≤ b && b ≤ 0xF3 then some (.owed 2 0x80 0xBF (b.toNat % 8))
  else if b = 0xF4 then some (.owed 2 0x80 0x8F 4)
  else none

/-- The code points of UTF-8 text, `none` standing for a run of octets that is no character. -/
def utf8Points (surrogates : Surrogates) : Utf8State → Octets → List (Option Nat)
  | .start, [] => []
  | .owed .., [] => [none]
  | .start, b :: bs =>
    if b < 0x80 then some b.toNat :: utf8Points surrogates .start bs
    else match leadOctet surrogates b with
      | some q => utf8Points surrogates q bs
      | none => none :: utf8Points surrogates .start bs
  | .owed more low high point, b :: bs =>
    if low ≤ b && b ≤ high then
      match more with
      | 0 => some (point * 64 + b.toNat % 64) :: utf8Points surrogates .start bs
      | more + 1 => utf8Points surrogates (.owed more 0x80 0xBF (point * 64 + b.toNat % 64)) bs
    else if b < 0x80 then none :: some b.toNat :: utf8Points surrogates .start bs
    else match leadOctet surrogates b with
      | some q => none :: utf8Points surrogates q bs
      | none => none :: none :: utf8Points surrogates .start bs

def replacement : CodePoint := '\uFFFD'

/-- UTF-8 text in which each bad run of octets becomes one replacement character. -/
def lossyUtf8 (bs : Octets) : Text :=
  (utf8Points false .start bs).map fun n => (n.map CodePoint.ofNat).getD replacement

def ofUtf8? (bs : Octets) : Option Text :=
  ((utf8Points true .start bs).mapM id).map (·.map CodePoint.ofNat)

/-- An octet behind the first one of a character: six bits of its number. -/
def trailOctet (n : Nat) : UInt8 := (0x80 + n % 64).toUInt8

/-- The octets of a code point by its number. -/
def pointOctets (n : Nat) : Octets :=
  if n < 0x80 then [n.toUInt8]
  else if n < 0x800 then [(0xC0 + n / 64).toUInt8, trailOctet n]
  else if n < 0x10000 then [(0xE0 + n / 4096).toUInt8, trailOctet (n / 64), trailOctet n]
  else [(0xF0 + n / 262144).toUInt8, trailOctet (n / 4096), trailOctet (n / 64), trailOctet n]

/-- A text in UTF-8; `none` if it holds half of a surrogate pair. -/
def utf8? (t : Text) : Option Octets := t.chars?.map fun cs => cs.flatMap fun c => pointOctets c.toNat

/-- The octets that a code point has in the name of a file: a surrogate may stand for one octet that is no
part of a character. -/
def nameOctets? : CodePoint → Option Octets
  | .char c => some (pointOctets c.toNat)
  | .half n => if 0x480 ≤ n.val && n.val < 0x500 then some [(n.val - 0x400).toUInt8] else none

/-- The octets of a text that names a file; `none` if it cannot name one. -/
def fileOctets? (t : Text) : Option Octets := (t.mapM nameOctets?).map List.flatten

def isLeadSurrogate (n : Nat) : Bool := 0xD800 ≤ n && n < 0xDC00

def isTrailSurrogate (n : Nat) : Bool := 0xDC00 ≤ n && n < 0xE000

def joinSurrogates (lead trail : Nat) : CodePoint :=
  .ofNat (0x10000 + (lead - 0xD800) * 0x400 + (trail - 0xDC00))

/-- Sixteen bit units joined into code points. -/
def ofUnits : List Nat → Text
  | [] => []
  | [u] => [.ofNat u]
  | u :: v :: us =>
    if isLeadSurrogate u && isTrailSurrogate v then joinSurrogates u v :: ofUnits us
    else .ofNat u :: ofUnits (v :: us)

inductive ByteOrder where
  | big
  | little

def ByteOrder.value (order : ByteOrder) (bs : Octets) : Nat :=
  match order with
  | .big => bs.foldl (fun n b => n * 256 + b.toNat) 0
  | .little => bs.foldr (fun b n => n * 256 + b.toNat) 0

def units16? (order : ByteOrder) : Octets → Option (List Nat)
  | [] => some []
  | [_] => none
  | a :: b :: bs => (units16? order bs).map (order.value [a, b] :: ·)

def units32? (order : ByteOrder) : Octets → Option (List Nat)
  | [] => some []
  | a :: b :: c :: d :: bs => (units32? order bs).map (order.value [a, b, c, d] :: ·)
  | _ => none

def utf16? (order : ByteOrder) (bs : Octets) : Option Text := (units16? order bs).map ofUnits

def utf32? (order : ByteOrder) (bs : Octets) : Option Text := do
  let us ← units32? order bs
  if us.all (· < 0x110000) then some (us.map .ofNat) else none

/-- Text whose encoding is told by its mark, or by where its first octets are zero. -/
def decodeAny? (bs : Octets) : Option Text :=
  match bs with
  | 0x00 :: 0x00 :: 0xFE :: 0xFF :: r => utf32? .big r
  | 0xFF :: 0xFE :: 0x00 :: 0x00 :: r => utf32? .little r
  | 0xFE :: 0xFF :: r => utf16? .big r
  | 0xFF :: 0xFE :: r => utf16? .little r
  | 0xEF :: 0xBB :: 0xBF :: r => ofUtf8? r
  | a :: b :: c :: d :: _ =>
    if a = 0 then (if b = 0 then utf32? .big bs else utf16? .big bs)
    else if b = 0 then (if c = 0 && d = 0 then utf32? .little bs else utf16? .little bs)
    else ofUtf8? bs
  | [a, b] => if a = 0 then utf16? .big bs else if b = 0 then utf16? .little bs else ofUtf8? bs
  | _ => ofUtf8? bs

end Text

end CallTrace
