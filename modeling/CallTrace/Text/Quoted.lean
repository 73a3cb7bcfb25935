import CallTrace.Text.Printable
import CallTrace.Text.Utf
import CallTrace.Number.Hexadecimal

namespace CallTrace.Text

/-- The mark that encloses a text. -/
def quoteFor (t : Text) : CodePoint := if t.contains '\'' && !t.contains '"' then '"' else '\''

def numbered (n : Nat) : Text :=
  if n < 0x100 then "\\x" ++ Number.hexPadded 2 n
  else if n < 0x10000 then "\\u" ++ Number.hexPadded 4 n
  else "\\U" ++ Number.hexPadded 8 n

def escaped (quote c : CodePoint) : Text :=
  if c = quote || c = '\\' then ['\\', c]
  else if c = '\n' then "\\n"
  else if c = '\r' then "\\r"
  else if c = '\t' then "\\t"
  else if isPrintable c then [c]
  else numbered c.toNat

def quoted (t : Text) : Text := quoteFor t :: t.flatMap (escaped (quoteFor t)) ++ [quoteFor t]

def escapedOctet (quote : CodePoint) (b : UInt8) : Text :=
  if 0x20 ≤ b && b < 0x7F then escaped quote (.ofNat b.toNat)
  else if b = 0x09 || b = 0x0A || b = 0x0D then escaped quote (.ofNat b.toNat)
  else numbered b.toNat

/-- Octets are quoted like text, behind a `b`, with every octet beyond ASCII written by its number. -/
def quotedOctets (bs : Octets) : Text :=
  let quote : CodePoint := if bs.contains 0x27 && !bs.contains 0x22 then '"' else '\''
  .char 'b' :: quote :: bs.flatMap (escapedOctet quote) ++ [quote]

/-- Items between brackets, with a comma and a space between them. -/
def bracketed (items : List Text) : Text := "[" ++ join ", " items ++ "]"

def quotedList (names : List Text) : Text := bracketed (names.map quoted)

end CallTrace.Text
