import CallTrace.Text.Basic

namespace CallTrace.Text

/-- The code points that count as white space. -/
def blankPoints : List Nat :=
  [0x09, 0x0A, 0x0B, 0x0C, 0x0D, 0x1C, 0x1D, 0x1E, 0x1F, 0x20, 0x85, 0xA0, 0x1680,
    0x2000, 0x2001, 0x2002, 0x2003, 0x2004, 0x2005, 0x2006, 0x2007, 0x2008, 0x2009, 0x200A,
    0x2028, 0x2029, 0x202F, 0x205F, 0x3000]

def isBlank (c : CodePoint) : Bool := blankPoints.contains c.toNat

def trimBy (p : α → Bool) (xs : List α) : List α :=
  ((xs.dropWhile p).reverse.dropWhile p).reverse

/-- A text without the white space at its two ends. -/
def trimmed (t : Text) : Text := trimBy isBlank t

def allBlank (t : Text) : Bool := t.all isBlank

/-- The octets that count as white space where no encoding is known yet. -/
def isBlankOctet (b : UInt8) : Bool := b == 0x20 || (0x09 ≤ b && b ≤ 0x0D)

end CallTrace.Text
