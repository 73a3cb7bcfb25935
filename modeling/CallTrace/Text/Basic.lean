namespace CallTrace

inductive CodePoint where
  | char (c : Char)
  /-- A surrogate, counted from the first one. -/
  | half (n : Fin 2048)
deriving DecidableEq, Inhabited

namespace CodePoint

instance : Coe Char CodePoint := ⟨.char⟩

def firstSurrogate : Nat := 0xD800

def toNat : CodePoint → Nat
  | .char c => c.toNat
  | .half n => firstSurrogate + n

/-- The code point of a number below `0x110000`. -/
def ofNat (n : Nat) : CodePoint :=
  if n.isValidChar then .char (Char.ofNat n) else .half (Fin.ofNat 2048 (n - firstSurrogate))

def char? : CodePoint → Option Char
  | .char c => some c
  | .half _ => none

/-- Whether a code point lies between two others, both included. -/
def isWithin (c low high : CodePoint) : Bool := low.toNat ≤ c.toNat && c.toNat ≤ high.toNat

def isDigit (c : CodePoint) : Bool := c.isWithin '0' '9'

/-- How far a code point lies behind another one. -/
def distance (c start : CodePoint) : Nat := c.toNat - start.toNat

theorem toNat_half (n : Fin 2048) : (half n).toNat = firstSurrogate + n := rfl

theorem ofNat_toNat (c : CodePoint) : ofNat c.toNat = c := by
  cases c with
  | char c =>
    have h : c.toNat.isValidChar := c.valid
    simp [toNat, ofNat, h]
  | half n =>
    have hn := n.isLt
    have h : ¬ (firstSurrogate + n.val).isValidChar := by
      simp only [firstSurrogate, Nat.isValidChar]
      omega
    simp only [toNat, ofNat, if_neg h, Nat.add_sub_cancel_left]
    exact congrArg half (Fin.ext (Nat.mod_eq_of_lt hn))

theorem toNat_injective {c d : CodePoint} (h : c.toNat = d.toNat) : c = d := by
  rw [← ofNat_toNat c, h, ofNat_toNat]

end CodePoint

abbrev Text := List CodePoint

namespace Text

def ofChars (cs : List Char) : Text := cs.map .char

def ofString (s : String) : Text := ofChars s.toList

instance : Coe String Text := ⟨ofString⟩

/-- The characters of a text, if it holds nothing else. -/
def chars? (t : Text) : Option (List Char) := t.mapM CodePoint.char?

/-- A text as a string, in which a question mark stands for half of a surrogate pair. -/
def lossyString (t : Text) : String := String.ofList (t.map fun c => c.char?.getD '?')

/-- A number in decimal digits. -/
def ofNat (n : Nat) : Text := ofChars (Nat.toDigits 10 n)

def ofInt (n : Int) : Text := if n < 0 then .char '-' :: ofNat n.natAbs else ofNat n.natAbs

/-- The order of texts: by the first code points that differ, and a text before all that it begins. -/
def atMost : Text → Text → Bool
  | [], _ => true
  | _ :: _, [] => false
  | c :: s, d :: t => c.toNat < d.toNat || (c = d && atMost s t)

def sorted (ts : List Text) : List Text := ts.mergeSort atMost

/-- Texts in a row, another one between each two of them. -/
def join (separator : Text) (ts : List Text) : Text := separator.intercalate ts

def concat (ts : List Text) : Text := ts.flatten

/-- The parts between the places where a code point stands. -/
def split (mark : CodePoint) (t : Text) : List Text := t.splitOn mark

def startsWith (t opening : Text) : Bool := opening.isPrefixOf t

def endsWith (t ending : Text) : Bool := ending.isSuffixOf t

/-- Whether a text is one of some others. -/
def isOneOf (t : Text) (ts : List Text) : Bool := ts.contains t

/-- What a table holds for a text. -/
def lookup (t : Text) (table : List (Text × α)) : Option α := List.lookup t table

theorem chars?_ofChars (cs : List Char) : (ofChars cs).chars? = some cs := by
  induction cs with
  | nil => rfl
  | cons c cs ih =>
    simp only [chars?, ofChars, List.map_cons, List.mapM_cons] at ih ⊢
    rw [ih]
    rfl

theorem ofChars_injective {cs ds : List Char} (h : ofChars cs = ofChars ds) : cs = ds :=
  Option.some.inj (by rw [← chars?_ofChars cs, h, chars?_ofChars])

end Text

end CallTrace
