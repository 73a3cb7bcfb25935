import CallTrace.Shell.Quoting
import CallTrace.Shell.Real

namespace CallTrace.Shell.Printf

inductive Manner where
  | inside
  | program
deriving DecidableEq

namespace Manner

def formatEscapes : Manner → Escapes
  | .inside => .insideFormat
  | .program => .format

def argumentEscapes : Manner → Escapes
  | .inside => .inside
  | .program => .argument

/-- How many bits the mantissa of a real number has. -/
def bits : Manner → Nat
  | .inside => 53
  | .program => 64

def letters : Manner → Text
  | .inside => "diouxXcsbaAeEfFgG"
  | .program => "diouxXcsbqaAeEfFgG"

def name (m : Manner) (t : Text) : Text :=
  match m with
  | .inside => t
  | .program => Quoting.inMessage t

def notNumeric (m : Manner) (t : Text) : Text :=
  m.name t ++
    match m with
    | .inside => ": expected numeric value"
    | .program => ": expected a numeric value"

def notWholly (m : Manner) (t : Text) : Text :=
  m.name t ++
    match m with
    | .inside => ": not completely converted"
    | .program => ": value not completely converted"

def outOfRange (m : Manner) (t : Text) : Text := m.name t ++ ": Numerical result out of range"

def invalid (m : Manner) (directive : Text) : Text :=
  directive ++
    match m with
    | .inside => ": invalid directive"
    | .program => ": invalid conversion specification"

end Manner

/-- A width or precision: as the format says, or the next argument. -/
inductive Amount where
  | fixed (n : Nat)
  | next

structure Conversion where
  flags : Text
  width : Option Amount
  precision : Option Amount
  letter : CodePoint
  /-- What stands in the format. -/
  source : Text

inductive Piece where
  | plain (t : Text)
  | conversion (c : Conversion)
  /-- A directive without a letter, which the format ends in. -/
  | unended (source : Text)
  | stop (ending : Escapes.End)

/-- The amount that a text begins with, and what stands behind it. -/
def amount (t : Text) : Option Amount × Text :=
  match t with
  | .char '*' :: u => (some .next, u)
  | t =>
    match Numeral.digits? 10 CodePoint.isDigit t with
    | some (n, u) => (some (.fixed n), u)
    | none => (none, t)

/-- The directive behind a percent sign, and how many code points it takes. -/
def directive (m : Manner) (t : Text) : Piece × Nat :=
  let flags := t.takeWhile ("#-+ 0" : Text).contains
  let (width, u) := amount (t.drop flags.length)
  let (precision, u) : Option Amount × Text := match u with
    | .char '.' :: v =>
      let (p, w) := amount v
      (some (p.getD (.fixed 0)), w)
    | u => (none, u)
  let u := match m with
    | .inside => u
    | .program => u.dropWhile ("hlLjtz" : Text).contains
  let size := t.length - u.length
  match u with
  | [] => (.unended (.char '%' :: t), size)
  | c :: _ => (.conversion ⟨flags, width, precision, c, .char '%' :: t.take (size + 1)⟩, size + 1)

/-- The pieces of a format, so many code points of it being passed over. -/
def pieces (m : Manner) (passed : Nat) : Text → List Piece
  | [] => []
  | c :: t =>
    if 0 < passed then pieces m (passed - 1) t
    else if c = '\\' then
      match m.formatEscapes.read t with
      | .octets bs n => .plain bs :: pieces m n t
      | .stop => [.stop .stopped]
      | .missingDigits => [.stop .missingDigits]
      | .wrongPoint name => [.stop (.wrongPoint name)]
    else if c = '%' then
      if t.head? = some (.char '%') then .plain "%" :: pieces m 1 t
      else
        let (piece, n) := directive m t
        piece :: pieces m n t
    else .plain [c] :: pieces m 0 t

structure State where
  arguments : List Text
  /-- What was written, last first, with the streams that it went to. -/
  written : List (Nat × Text) := []
  status : Nat := 0

/-- What writes by a format; it may stop before the end. -/
abbrev Printer := EStateM PUnit State

def write (t : Text) : Printer PUnit := modify fun s => { s with written := (1, t) :: s.written }

def complain (t : Text) : Printer PUnit :=
  modify fun s => { s with written := (2, t) :: s.written, status := 1 }

/-- Complains and stops, with a status. -/
def giveUp (status : Nat) (t : Text) : Printer α := do
  complain t
  modify fun s => { s with status }
  throw ⟨⟩

def argument? : Printer (Option Text) := do
  let s ← get
  match s.arguments with
  | [] => return none
  | t :: arguments =>
    set { s with arguments }
    return some t

/-- Tells what is wrong with an argument that has to be a number. -/
def check (m : Manner) (t : Text) (rest : Option Text) (hasRoom : Bool) : Printer PUnit := do
  match rest with
  | none => if !t.isEmpty then complain (m.notNumeric t)
  | some rest =>
    if !hasRoom && m = .program then complain (m.outOfRange t)
    else if !rest.isEmpty then complain (m.notWholly t)
    else if !hasRoom then complain (m.outOfRange t)

/-- The code of the sign behind a quotation mark. -/
def signCode? : Text → Option Nat
  | .char '\'' :: t | .char '"' :: t => some ((t.head?.map CodePoint.toNat).getD 0)
  | _ => none

def signCode (m : Manner) (t : Text) : Printer (Option Nat) := do
  match m, signCode? t with
  | .program, some n =>
    match Quoting.leadingPoint? (t.drop 1) with
    | some (point, octets) =>
      if octets.length + 1 < t.length then
        let rest := t.drop (octets.length + 1)
        modify fun s => { s with
          written := (2, "warning: " ++ rest ++
            ": character(s) following character constant have been ignored") :: s.written }
      return some point
    | none =>
      if t.length = 1 then return none
      return some n
  | _, n => return n

def integer (m : Manner) (isSigned : Bool) : Printer Int := do
  match ← argument? with
  | none => return 0
  | some t =>
    match ← signCode m t with
    | some n => return n
    | none =>
      match Numeral.signed? .marked t with
      | none =>
        check m t none true
        return 0
      | some (n, rest) =>
        let hasRoom := if isSigned then Numeral.hasRoom n else n.natAbs < twoPow 64
        check m t (some rest) hasRoom
        return if isSigned then Numeral.clamped n
          else if hasRoom then n % twoPow 64
          else Int.ofNat (twoPow 64 - 1)

def real (m : Manner) : Printer Real := do
  match ← argument? with
  | none => return .ratio false 0 1
  | some t =>
    match ← signCode m t with
    | some n => return .ratio false n 1
    | none =>
      match Real.read? t with
      | none =>
        check m t none true
        return .ratio false 0 1
      | some (x, rest) =>
        check m t (some rest) true
        return x.rounded m.bits

/-- An amount that is perhaps the next argument. -/
def resolve (m : Manner) : Option Amount → Printer (Option Int)
  | none => return none
  | some (.fixed n) => return some n
  | some .next => return some (← integer m true)

/-- A text in a field of some width. -/
def inField (left : Bool) (width : Nat) (t : Text) : Text :=
  let blanks : Text := List.replicate (width - t.length) (.char ' ')
  if left then t ++ blanks else blanks ++ t

/-- The digits of a number behind its sign, in a field that zeros may fill. -/
def inNumberField (flags : Text) (fillable : Bool) (width : Nat) (sign digits : Text) : Text :=
  let left := flags.contains '-'
  let fill := if fillable && flags.contains '0' && !left then width - sign.length - digits.length else 0
  inField left width (sign ++ Real.zeros fill ++ digits)

def signText (flags : Text) (isNegative : Bool) : Text :=
  if isNegative then "-" else if flags.contains '+' then "+" else if flags.contains ' ' then " " else []

def capital (t : Text) : Text :=
  t.map fun c => if c.isWithin 'a' 'z' then .ofNat (c.toNat - 32) else c

/-- The digits of a whole number as a letter asks for them, with their mark. -/
def wholeDigits (flags : Text) (letter : CodePoint) (precision : Option Nat) (n : Nat) : Text × Text :=
  let ds : Text :=
    if n = 0 && precision = some 0 then []
    else if letter = 'o' then Text.ofChars (Nat.toDigits 8 n)
    else if letter = 'x' || letter = 'X' then Number.hexDigits n
    else Text.ofNat n
  let ds := Real.zeros (precision.getD 0 - ds.length) ++ ds
  if !flags.contains '#' then ([], ds)
  else if letter = 'o' then ([], if ds.head? = some (.char '0') then ds else .char '0' :: ds)
  else if (letter = 'x' || letter = 'X') && n ≠ 0 then ("0x", ds)
  else ([], ds)

/-- Writes what a conversion makes of the next arguments. -/
def convert (m : Manner) (c : Conversion) : Printer PUnit := do
  let width := (← resolve m c.width).getD 0
  let flags := if width < 0 then .char '-' :: c.flags else c.flags
  let width := width.natAbs
  let left := flags.contains '-'
  let precision : Option Nat := match ← resolve m c.precision with
    | some (.ofNat n) => some n
    | _ => none
  let cutText (t : Text) : Text := match precision with
    | some n => t.take n
    | none => t
  if !m.letters.contains c.letter then giveUp (if m = .inside then 2 else 1) (m.invalid c.source)
  if c.letter = 's' then write (inField left width (cutText ((← argument?).getD [])))
  else if c.letter = 'c' then
    let t := match ← argument? with
      | some (d :: _) => [d]
      | _ => [.ofNat 0]
    write (inField left width t)
  else if c.letter = 'q' then
    match ← argument? with
    | some t => write (inField left width (Quoting.forShell t))
    | none => write (inField left width "''")
  else if c.letter = 'b' then
    let (t, ending) := m.argumentEscapes.apply 0 ((← argument?).getD [])
    write (inField left width (cutText t))
    match ending with
    | .whole => pure ⟨⟩
    | .stopped => throw ⟨⟩
    | .missingDigits => giveUp 1 "missing hexadecimal number in escape"
    | .wrongPoint name => giveUp 1 ("invalid universal character name " ++ name)
  else if ("di" : Text).contains c.letter then
    let n ← integer m true
    let (_, ds) := wholeDigits [] c.letter precision n.natAbs
    write (inNumberField flags precision.isNone width (signText flags (n < 0)) ds)
  else if ("ouxX" : Text).contains c.letter then
    let n ← integer m false
    let (mark, ds) := wholeDigits flags c.letter precision n.toNat
    let t := inNumberField flags precision.isNone width mark ds
    write (if c.letter = 'X' then capital t else t)
  else
    let x ← real m
    let isFinite := match x with
      | .ratio .. => true
      | _ => false
    let small := Real.lowered [c.letter]
    let ds := x.form (small.headD '?') (flags.contains '#') m.bits precision
    let t := inNumberField flags isFinite width (signText flags x.isNegative) ds
    write (if small = [c.letter] then t else capital t)

def writePiece (m : Manner) : Piece → Printer PUnit
  | .plain t => write t
  | .conversion c => convert m c
  | .unended source =>
    match m with
    | .inside => giveUp 2 "missing format character"
    | .program => giveUp 1 (m.invalid source)
  | .stop .missingDigits => giveUp 1 "missing hexadecimal number in escape"
  | .stop (.wrongPoint name) => giveUp 1 ("invalid universal character name " ++ name)
  | .stop _ => throw ⟨⟩

/-- Goes through a format again and again for as long as it takes arguments and some are left. Each time
takes one at least, so their number bounds how often. -/
def repeatAll (m : Manner) (ps : List Piece) : Nat → Printer PUnit
  | 0 => return
  | fuel + 1 => do
    let before := (← get).arguments
    ps.forM (writePiece m)
    match (← get).arguments with
    | [] => return
    | next :: rest =>
      if rest.length + 1 < before.length then repeatAll m ps fuel
      else if m = .program then
        modify fun s => { s with written :=
          (2, "warning: ignoring excess arguments, starting with " ++ Quoting.inMessage next) :: s.written }

/-- What is written to the two streams by a format, in order, and the status. Every message is one line
without its end. -/
def run (m : Manner) (format : Text) (arguments : List Text) : List (Nat × Text) × Nat :=
  match (repeatAll m (pieces m 0 format) (arguments.length + 1)).run { arguments } with
  | .ok _ s | .error _ s => (s.written.reverse, s.status)

end CallTrace.Shell.Printf
