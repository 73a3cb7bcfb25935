import CallTrace.Shell.Printf
import CallTrace.Shell.Program.Basic

namespace CallTrace.Shell

namespace Program

/-- Whether an argument of `echo` is made of nothing but the letters of options. -/
def isEchoOption (arg : Text) : Bool :=
  arg.head? = some (.char '-') && 1 < arg.length && (arg.drop 1).all ("neE" : Text).contains

def echo : Program := fun args => do
  let letters : Text := (args.takeWhile isEchoOption).flatMap fun arg => arg.drop 1
  let words := args.dropWhile isEchoOption
  let isEscaped := (letters.filter (· ≠ .char 'n')).getLast? = some (.char 'e')
  let line := Text.join " " words
  let (line, ending) := if isEscaped then Escapes.echo.apply 0 line else (line, .whole)
  write (if letters.contains 'n' || ending ≠ .whole then line else line ++ "\n")
  return 0

def printf : Program := fun args => do
  let args := if args.head? = some (Text.ofString "--") then args.drop 1 else args
  match args with
  | [] => misuse "missing operand" 1
  | format :: args =>
    let (pieces, status) := Printf.run .program format args
    for (stream, t) in pieces do
      if stream = 1 then write t else complain t
    return status

/-- How a line is shown. -/
structure LineStyle where
  numbers : Bool
  numbersUnlessEmpty : Bool
  squeezes : Bool
  ends : Bool
  tabs : Bool
  controls : Bool

/-- A number in a field of some width. -/
def inColumn (width n : Nat) : Text := Printf.inField false width (Text.ofNat n)

/-- An octet by a sign that can be seen. Line ends and tabs are left. -/
def visible (c : CodePoint) : Text :=
  let n := c.toNat
  let low (m : Nat) : Text :=
    if m < 32 then [.char '^', .ofNat (m + 64)] else if m = 127 then "^?" else [.ofNat m]
  if c = '\n' || c = '\t' then [c] else if n < 128 then low n else "M-" ++ low (n - 128)

/-- Lines as they are shown, so many having been counted. -/
def shown (style : LineStyle) (count : Nat) (wasEmpty : Bool) : List Text → List Text
  | [] => []
  | line :: lines =>
    let isEmpty := line = "\n"
    if isEmpty && wasEmpty && style.squeezes then shown style count true lines
    else
      let counts := if style.numbersUnlessEmpty then !isEmpty else style.numbers
      let mark : Text := if counts then inColumn 6 (count + 1) ++ "\t" else []
      let body : Text := if style.controls then line.flatMap visible else line
      let body : Text := if style.tabs then body.flatMap fun c => if c = CodePoint.char '\t' then "^I" else [c]
        else body
      let body : Text := if style.ends && line.endsWith "\n" then body.dropLast ++ "$\n" else body
      (mark ++ body) :: shown style (if counts then count + 1 else count) isEmpty lines

def cat : Program := fun args => withOptions "AbeEnstTuv" [] args (fun o => do
  let style : LineStyle := {
    numbers := o.has 'n'
    numbersUnlessEmpty := o.has 'b'
    squeezes := o.has 's'
    ends := o.has 'E' || o.has 'A' || o.has 'e'
    tabs := o.has 'T' || o.has 'A' || o.has 't'
    controls := o.has 'v' || o.has 'A' || o.has 'e' || o.has 't' }
  let isPlain := !(style.numbers || style.numbersUnlessEmpty || style.squeezes || style.ends || style.tabs ||
    style.controls)
  let mut status := 0
  let mut all : Text := []
  let isClosed := (← Action.stream? 0).isNone && o.names.contains "-"
  for name in o.names do
    if isClosed && name = "-" then
      complain "-: Bad file descriptor"
      status := 1
      continue
    match ← source name with
    | .error f =>
      if isPlain then
        write all
        all := []
      complain (inLine name ++ ": " ++ reason f)
      status := 1
    | .ok s =>
      all := all ++ s.text
      match s.tail with
      | .ending => pure ⟨⟩
      | .again t =>
        write all
        writeForever t
      | .silence =>
        write all
        throw .stuck
  write (if isPlain then all else Text.concat (shown style 0 false (lines all)))
  if isClosed then complain "closing standard input: Bad file descriptor"
  return status) 1

def yes : Program := fun args => writeForever (Text.join " " (if args.isEmpty then ["y"] else args) ++ "\n")

def seqNumbers (step : Int) : Nat → Int → List Int
  | 0, _ => []
  | n + 1, start => start :: seqNumbers step n (start + step)

/-- Whether an argument is a number below zero, and no option. -/
def isNegativeNumber (t : Text) : Bool := t.startsWith "-" && ((t.drop 1).head?.any CodePoint.isDigit)

/-- What stands between numbers, whether all get the same width, and the numbers. -/
def seqOptions (separator : Text) (isWide : Bool) : List Text → Text × Bool × List Text
  | [] => (separator, isWide, [])
  | arg :: args =>
    if arg = "-w" then seqOptions separator true args
    else if arg.startsWith "-s" then
      match arg.drop 2, args with
      | [], t :: args => seqOptions t isWide args
      | t, args => seqOptions t isWide args
    else (separator, isWide, arg :: args)

def seq : Program := fun args => do
  let (separator, isWide, operands) := seqOptions "\n" false args
  if operands.isEmpty then return ← misuse "missing operand" 1
  match operands.find? fun t => t.startsWith "-" && !isNegativeNumber t && t ≠ "-" with
  | some t => return ← misuse ("invalid option -- '" ++ (t.drop 1).take 1 ++ "'") 1
  | none => pure ⟨⟩
  match operands.find? fun t => (Numeral.whole? .decimal t).isNone with
  | some t => misuse ("invalid floating point argument: " ++ Quoting.inMessage t) 1
  | none =>
    let numbers := operands.filterMap (Numeral.whole? .decimal)
    let (first, step, last) : Int × Int × Int := match numbers with
      | [last] => (1, 1, last)
      | [first, last] => (first, 1, last)
      | first :: step :: last :: _ => (first, step, last)
      | [] => (1, 1, 0)
    if step = 0 then
      return ← misuse ("invalid Zero increment value: " ++ Quoting.inMessage "0") 1
    let count := if 0 < step then (last - first) / step + 1 else (first - last) / (-step) + 1
    let texts := (seqNumbers step count.toNat first).map Text.ofInt
    let width := texts.foldl (fun w t => max w t.length) 0
    let texts := if isWide then texts.map fun t => Real.zeros (width - t.length) ++ t else texts
    if !texts.isEmpty then write (Text.join separator texts ++ "\n")
    return 0

end Program

end CallTrace.Shell
