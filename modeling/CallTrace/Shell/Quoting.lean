import CallTrace.Shell.Escape
import CallTrace.Text.Printable

namespace CallTrace.Shell.Quoting

/-- The piece of a text that a reader of UTF-8 takes for one: a code point, or an octet that is part of
none. -/
inductive Glyph where
  | point (n : Nat) (octets : Text)
  | octet (c : CodePoint)

def leadingPoint? (t : Text) : Option (Nat × Text) :=
  [1, 2, 3, 4].findSome? fun n =>
    let front := t.take n
    match Text.ofUtf8? (Text.toOctets front) with
    | some [.char c] => if front.length = n then some (c.toNat, front) else none
    | _ => none

/-- The glyphs of a text, so many octets of it being passed over. -/
def glyphs (passed : Nat) : Text → List Glyph
  | [] => []
  | c :: t =>
    if 0 < passed then glyphs (passed - 1) t
    else match leadingPoint? (c :: t) with
      | some (n, octets) => .point n octets :: glyphs (octets.length - 1) t
      | none => .octet c :: glyphs 0 t

def octal (c : CodePoint) : Text := .char '\\' :: Text.ofChars ((Nat.toDigits 8 (c.toNat + 512)).drop 1)

/-- A glyph that can be shown, as it is. -/
def Glyph.shown? : Glyph → Option Text
  | .point n octets => if Text.isPrintable (.ofNat n) then some octets else none
  | .octet _ => none

def escapeSigns : List (CodePoint × Text) := [
  ('\x07', "\\a"), ('\x08', "\\b"), ('\x0c', "\\f"), ('\n', "\\n"), ('\r', "\\r"), ('\t', "\\t"),
  ('\x0b', "\\v")]

/-- A glyph that cannot be shown, as its octets. -/
def Glyph.escaped : Glyph → Text
  | .point _ octets =>
    match octets with
    | [c] => (escapeSigns.lookup c).getD (octal c)
    | cs => cs.flatMap octal
  | .octet c => octal c

/-- A word between the marks that messages put around it. -/
def inMessage (t : Text) : Text :=
  let inside := (glyphs 0 t).flatMap fun u =>
    match u.shown? with
    | some ['\\'] => "\\\\"
    | some shown => shown
    | none => u.escaped
  Text.ofOctets [0xE2, 0x80, 0x98] ++ inside ++ Text.ofOctets [0xE2, 0x80, 0x99]

/-- The signs that mean something to a shell wherever they stand. -/
def signs : Text := " !\"$&()*;<=>?[\\^\x60|'"

/-- Whether a word means itself to a shell. -/
def isPlain (t : Text) : Bool :=
  !t.isEmpty && !t.isOneOf ["\x7b", "\x7d"] && !(t.head?.any ("#~" : Text).contains) &&
    (glyphs 0 t).all fun u => u.shown?.any fun shown => !shown.any signs.contains

/-- The signs that mean nothing between double quotes, among those that have to be quoted. -/
def mayStandInDouble (c : CodePoint) : Bool :=
  c = '\'' || isNamePart c || (" #%+,-./:@]~" : Text).contains c || 0x80 ≤ c.toNat

/-- A word between apostrophes, which are left for what cannot be shown. -/
def inApostrophes (isOpen : Bool) : List Glyph → Text
  | [] => if isOpen then "'" else []
  | u :: us =>
    match u.shown? with
    | some ['\''] => (if isOpen then "'\\''" else "\\''" : Text) ++ inApostrophes true us
    | some shown => (if isOpen then [] else "'" : Text) ++ shown ++ inApostrophes true us
    | none =>
      (if isOpen then "'$'" else "$'" : Text) ++ u.escaped ++ "'" ++ inApostrophes false us

/-- A word as a shell reads it. -/
def forShell (t : Text) : Text :=
  if isPlain t then t
  else if t.contains '\'' && t.all mayStandInDouble then "\"" ++ t ++ "\""
  else "'" ++ inApostrophes true (glyphs 0 t)

end CallTrace.Shell.Quoting
