import CallTrace.Shell.Numeral
import CallTrace.Text.Utf

namespace CallTrace.Shell

/-- The signs that are known behind a backslash. -/
structure Escapes where
  /-- Signs that stand for one octet. -/
  letters : List (CodePoint × CodePoint)
  /-- Whether three digits may follow a zero. -/
  longOctal : Bool
  /-- Whether octal digits may come without a zero in front. -/
  bareOctal : Bool
  hexadecimal : Bool
  /-- Whether an x without digits is wrong. -/
  strictHexadecimal : Bool
  /-- Whether code points can be named by their numbers. -/
  points : Bool
  /-- Whether a c ends all output. -/
  stops : Bool

namespace Escapes

def controls : List (CodePoint × CodePoint) := [
  ('\\', '\\'), ('a', '\x07'), ('b', '\x08'), ('e', '\x1b'), ('f', '\x0c'), ('n', '\n'), ('r', '\r'),
  ('t', '\t'), ('v', '\x0b')]

/-- What a shell knows in its own output. -/
def inside : Escapes := ⟨controls, true, true, false, false, false, true⟩

/-- What a shell knows in the first argument of `printf`. -/
def insideFormat : Escapes := { inside with longOctal := false, stops := false }

/-- What the program `echo` knows. -/
def echo : Escapes := ⟨controls, true, true, true, false, false, true⟩

/-- What the program `printf` knows in its first argument. -/
def format : Escapes := ⟨('"', '"') :: controls, false, true, true, true, true, true⟩

/-- What the program `printf` knows in other arguments. -/
def argument : Escapes := { format with longOctal := true }

end Escapes

/-- What a sign behind a backslash comes to. -/
inductive Escaped where
  /-- Octets, and how many code points behind the backslash were read for them. -/
  | octets (t : Text) (taken : Nat)
  | stop
  | missingDigits
  /-- A number that names no code point in this way. -/
  | wrongPoint (name : Text)

namespace Escapes

/-- As many digits as pass a test and are allowed. -/
def digits (most : Nat) (p : CodePoint → Bool) (t : Text) : Text := (t.take most).takeWhile p

def octet (n : Nat) : Text := [.ofNat (n % 256)]

/-- The octal digits in front as an octet; without digits there is none. -/
def octal (before : Nat) (t : Text) : Escaped :=
  let ds := digits 3 Numeral.isOctalDigit t
  .octets (octet (Numeral.ofDigits 8 ds)) (before + ds.length)

def hexadecimal? (e : Escapes) (t : Text) : Escaped :=
  let ds := digits 2 Number.isHexDigit t
  if !ds.isEmpty then .octets (octet (Numeral.ofDigits 16 ds)) (1 + ds.length)
  else if e.strictHexadecimal then .missingDigits
  else .octets "\\x" 1

/-- Whether a number is that of a code point that can be written. -/
def isNamed (n : Nat) : Bool := !(0xD800 ≤ n && n < 0xE000) && n < 0x110000

/-- A code point named by so many digits behind a letter. -/
def point (letter : CodePoint) (size : Nat) (t : Text) : Escaped :=
  let ds := digits size Number.isHexDigit t
  let n := Numeral.ofDigits 16 ds
  if ds.length < size then .missingDigits
  else if !isNamed n then .wrongPoint (.char '\\' :: letter :: Number.hexPadded size n)
  else .octets (Text.ofOctets (Text.pointOctets n)) (1 + size)

/-- What the code points behind a backslash begin with. -/
def read (e : Escapes) : Text → Escaped
  | [] => .octets "\\" 0
  | c :: t =>
    match e.letters.lookup c with
    | some d => .octets [d] 1
    | none =>
      if c = 'c' && e.stops then .stop
      else if c = 'x' && e.hexadecimal then e.hexadecimal? t
      else if c = 'u' && e.points then point c 4 t
      else if c = 'U' && e.points then point c 8 t
      else if c = '0' && e.longOctal && (t.head?.any Numeral.isOctalDigit) then octal 1 t
      else if Numeral.isOctalDigit c && (e.bareOctal || c = '0') then octal 0 (c :: t)
      else .octets "\\" 0

/-- How a text ends in which signs were read. -/
inductive End where
  | whole
  | stopped
  | missingDigits
  | wrongPoint (name : Text)
deriving DecidableEq

/-- A text with its signs read, so many code points of it being passed over. -/
def apply (e : Escapes) (passed : Nat) : Text → Text × End
  | [] => ([], .whole)
  | c :: t =>
    if 0 < passed then e.apply (passed - 1) t
    else if c = '\\' then
      match e.read t with
      | .octets bs n =>
        let (rest, ending) := e.apply n t
        (bs ++ rest, ending)
      | .stop => ([], .stopped)
      | .missingDigits => ([], .missingDigits)
      | .wrongPoint name => ([], .wrongPoint name)
    else
      let (rest, ending) := e.apply 0 t
      (c :: rest, ending)

end Escapes

end CallTrace.Shell
