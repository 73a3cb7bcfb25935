import CallTrace.Text.Basic

namespace CallTrace.Number

/-- Lower case hexadecimal digits, most significant first; zero has one. -/
def hexDigits (n : Nat) : Text := Text.ofChars (Nat.toDigits 16 n)

/-- Hexadecimal digits, filled with zeros in front up to a width. -/
def hexPadded (width n : Nat) : Text :=
  List.replicate (width - (hexDigits n).length) (.char '0') ++ hexDigits n

/-- The value of a hexadecimal digit of either case. -/
def hexDigitValue? (c : CodePoint) : Option Nat :=
  if c.isDigit then some (c.distance '0')
  else if c.isWithin 'a' 'f' then some (c.distance 'a' + 10)
  else if c.isWithin 'A' 'F' then some (c.distance 'A' + 10)
  else none

def isHexDigit (c : CodePoint) : Bool := (hexDigitValue? c).isSome

/-- The number that hexadecimal digits denote, other code points counting as zeros. -/
def ofHexDigits (t : Text) : Nat := t.foldl (fun n c => n * 16 + (hexDigitValue? c).getD 0) 0

/-- An integer behind its mark and sign, filled with zeros to four code points in all. -/
def hexMarked (n : Int) : Text :=
  if n < 0 then "-0x" ++ hexPadded 1 n.natAbs else "0x" ++ hexPadded 2 n.natAbs

theorem hexDigitValue?_digitChar : ∀ n < 16, hexDigitValue? (.char n.digitChar) = some n := by decide

end CallTrace.Number
