import CallTrace.Json.Basic
import CallTrace.Number.Numeral
import CallTrace.Number.Hexadecimal
import CallTrace.Text.Utf

namespace CallTrace.Json

/-- Why a text is not read. -/
inductive ReadFault where
  | malformed
  /-- An integer has more digits than are read. -/
  | tooManyDigits
  /-- Lists and objects nest deeper than is read. -/
  | tooDeep
deriving DecidableEq

inductive Token where
  | openList
  | closeList
  | openObject
  | closeObject
  | comma
  | colon
  | value (j : Json)

/-- The part of a text that has been read, last code point first. -/
structure Draft where
  points : Text := []
  /-- The first half of a surrogate pair, if the last escape gave one. -/
  lead : Option Nat := none

namespace Draft

def add (d : Draft) (c : CodePoint) : Draft := ⟨c :: d.points, none⟩

/-- Adds the unit that an escape gives. The two halves of a pair join only if both are escaped. -/
def addUnit (d : Draft) (n : Nat) : Draft :=
  match d.lead with
  | some lead =>
    if Text.isTrailSurrogate n then ⟨Text.joinSurrogates lead n :: d.points.tail, none⟩
    else ⟨.ofNat n :: d.points, if Text.isLeadSurrogate n then some n else none⟩
  | none => ⟨.ofNat n :: d.points, if Text.isLeadSurrogate n then some n else none⟩

def text (d : Draft) : Text := d.points.reverse

end Draft

/-- What the scanner is inside of; a word is kept with the last code point first. -/
inductive Scan where
  | outside
  | word (t : Text)
  | inText (d : Draft)
  | escape (d : Draft)
  | unit (d : Draft) (left value : Nat)

def isSpace (c : CodePoint) : Bool := c = ' ' || c = '\t' || c = '\n' || c = '\r'

def punctuation? (c : CodePoint) : Option Token :=
  if c = '[' then some .openList
  else if c = ']' then some .closeList
  else if c = '\x7b' then some .openObject
  else if c = '\x7d' then some .closeObject
  else if c = ',' then some .comma
  else if c = ':' then some .colon
  else none

def allDigits (t : Text) : Bool := !t.isEmpty && t.all CodePoint.isDigit

def digitsValue (t : Text) : Nat := Number.ofDigits (t.map (·.distance '0'))

/-- Whole digits: a zero that leads is alone. -/
def isWhole (t : Text) : Bool := allDigits t && (t.length = 1 || t.head? ≠ some (.char '0'))

def fraction? : Option Text → Option Text
  | none => some []
  | some t => if allDigits t then some t else none

def power? : Option Text → Option Int
  | none => some 0
  | some t =>
    let (negative, body) := Number.splitSign t
    if allDigits body then some (Number.withSign negative (digitsValue body)) else none

def number (t : Text) : Except ReadFault Json :=
  let (negative, body) := match t with
    | .char '-' :: body => (true, body)
    | body => (false, body)
  let (whole, fraction, power) := Number.parts body
  if !isWhole whole then .error .malformed
  else if fraction.isNone && power.isNone then
    if whole.length ≤ Number.maxDigits then .ok (.int (Number.withSign negative (digitsValue whole)))
    else .error .tooManyDigits
  else match fraction? fraction, power? power with
    | some fs, some p =>
      .ok (.real (.ofDecimal negative (digitsValue (whole ++ fs)) (p - Int.ofNat fs.length)))
    | _, _ => .error .malformed

/-- The names of values. -/
def names : List (Text × Json) := [
  ("null", .null), ("true", .bool true), ("false", .bool false), ("NaN", .real .nan),
  ("Infinity", .real (.infinite false)), ("-Infinity", .real (.infinite true))]

def word (t : Text) : Except ReadFault Json := (t.lookup names).elim (number t) .ok

def escapes : List (CodePoint × CodePoint) := [
  ('"', '"'), ('\\', '\\'), ('/', '/'), ('b', '\x08'), ('f', '\x0C'), ('n', '\n'), ('r', '\r'), ('t', '\t')]

/-- The tokens that a code point between words adds, and what it begins. -/
def between (done : List Token) (c : CodePoint) : List Token × Scan :=
  if isSpace c then (done, .outside)
  else if c = '"' then (done, .inText {})
  else match punctuation? c with
    | some t => (t :: done, .outside)
    | none => (done, .word [c])

/-- Scans a text, the tokens found so far being `done`, last one first. -/
def scan (done : List Token) : Scan → Text → Except ReadFault (List Token)
  | .outside, [] => .ok done.reverse
  | .word w, [] => (word w.reverse).map fun j => (.value j :: done).reverse
  | _, [] => .error .malformed
  | .outside, c :: cs =>
    let (done, q) := between done c
    scan done q cs
  | .word w, c :: cs =>
    if isSpace c || c = '"' || (punctuation? c).isSome then
      match word w.reverse with
      | .ok j =>
        let (done, q) := between (.value j :: done) c
        scan done q cs
      | .error e => .error e
    else scan done (.word (c :: w)) cs
  | .inText d, c :: cs =>
    if c = '"' then scan (.value (.text d.text) :: done) .outside cs
    else if c = '\\' then scan done (.escape d) cs
    else if c.toNat < 0x20 then .error .malformed
    else scan done (.inText (d.add c)) cs
  | .escape d, c :: cs =>
    if c = 'u' then scan done (.unit d 4 0) cs
    else match escapes.lookup c with
      | some e => scan done (.inText (d.add e)) cs
      | none => .error .malformed
  | .unit d left n, c :: cs =>
    match Number.hexDigitValue? c with
    | none => .error .malformed
    | some digit =>
      let n := n * 16 + digit
      if left ≤ 1 then scan done (.inText (d.addUnit n)) cs else scan done (.unit d (left - 1) n) cs

def tokens (t : Text) : Except ReadFault (List Token) := scan [] .outside t

end CallTrace.Json
