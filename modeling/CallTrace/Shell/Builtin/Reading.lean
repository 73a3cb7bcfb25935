import CallTrace.Shell.Builtin.Basic

namespace CallTrace.Shell

namespace Builtin

open Shell.Action

/-- A line that is read: its code points, each with whether it can be cut at, and whether the line has an end.
A backslash takes the meaning of what follows it. -/
def lineLetters (isRaw : Bool) (done : List (CodePoint × Bool)) : Text → List (CodePoint × Bool) × Text × Bool
  | [] => (done.reverse, [], false)
  | .char '\n' :: t => (done.reverse, t, true)
  | .char '\\' :: c :: t =>
    if isRaw then lineLetters isRaw ((.char '\\', true) :: done) (c :: t)
    else if c = '\n' then lineLetters isRaw done t
    else lineLetters isRaw ((c, false) :: done) t
  | c :: t => lineLetters isRaw ((c, true) :: done) t
termination_by t => t.length

/-- Where texts are cut, and what of that is blank. -/
structure Separators where
  all : Text

namespace Separators

def ofValue (ifs : Option Text) : Separators := ⟨ifs.getD " \t\n"⟩

def isBlank (s : Separators) (c : CodePoint) : Bool :=
  s.all.contains c && (c = ' ' || c = '\t' || c = '\n')

def cuts (s : Separators) (c : CodePoint × Bool) : Bool := c.2 && s.all.contains c.1

def cutsBlank (s : Separators) (c : CodePoint × Bool) : Bool := c.2 && s.isBlank c.1

def withoutBlanks (s : Separators) (cs : List (CodePoint × Bool)) : List (CodePoint × Bool) :=
  cs.dropWhile s.cutsBlank

def withoutBlanksAtEnd (s : Separators) (cs : List (CodePoint × Bool)) : List (CodePoint × Bool) :=
  (s.withoutBlanks cs.reverse).reverse

/-- What stands behind a place to cut at: blanks, and one other mark among them. -/
def behindCut (s : Separators) (cs : List (CodePoint × Bool)) : List (CodePoint × Bool) :=
  match s.withoutBlanks cs with
  | c :: rest => if s.cuts c then s.withoutBlanks rest else c :: rest
  | [] => []

/-- The rest of a line, for its last name: one mark at the end is left out if there is no other. -/
def last (s : Separators) (cs : List (CodePoint × Bool)) : Text :=
  let cs := s.withoutBlanksAtEnd cs
  let cs := match cs.reverse with
    | c :: rest =>
      if s.cuts c && !rest.any s.cuts then s.withoutBlanksAtEnd rest.reverse else cs
    | [] => []
  cs.map (·.1)

/-- As many texts as there are names. -/
def share (s : Separators) : Nat → List (CodePoint × Bool) → List Text
  | 0, _ => []
  | 1, cs => [s.last cs]
  | n + 2, cs =>
    let front := cs.takeWhile (!s.cuts ·)
    front.map (·.1) :: share s (n + 1) (s.behindCut (cs.drop front.length))

end Separators

def read : Builtin := fun args => do
  let (given, names) ← options "r" "p" args
  if names.isEmpty then abort "arg count"
  let isRaw := given.any (·.1 = .char 'r')
  let s ← get
  match ← source? 0 with
  | none => return 1
  | some source =>
    let source := match source.tail with
      | .again t => { source with text := source.text ++ t }
      | _ => source
    let (letters, rest, isWhole) := lineLetters isRaw [] source.text
    if !isWhole then
      match source.tail with
      | .ending => pure ⟨⟩
      | _ => throw .stuck
    waitUntil source.ready
    match s.streams.lookup 0 with
    | some (.source n) => onMachine (·.setSource n { source with text := rest })
    | _ => pure ⟨⟩
    let separators := Separators.ofValue (← value? "IFS")
    let values := separators.share names.length (separators.withoutBlanks letters)
    for (name, value) in names.zip values do
      let (name, _) := assignment name
      checkName name
      assign name value
    return if isWhole then 0 else 1

/-- The next option of arguments, by the letters that are known. -/
def getopts : Builtin := fun args => do
  match args with
  | known :: name :: rest =>
    let s ← get
    let given := if rest.isEmpty then s.arguments else rest
    let isQuiet := known.startsWith ":"
    let index := ((← value? "OPTIND").bind Numeral.count?).getD 1
    let finish (index : Nat) (letter : Text) (value : Option Text) (letters status : Nat) : Action Nat := do
      assign "OPTIND" (Text.ofNat index)
      modify fun s => { s with optionLetters := letters }
      match value with
      | some t => assign "OPTARG" t
      | none => modify fun s => { s with bindings := s.bindings.filter (·.1 ≠ "OPTARG") }
      assign name letter
      return status
    let arg? := if s.optionLetters = 0 then given[index - 1]? else given[index - 2]?
    let next := if s.optionLetters = 0 then index + 1 else index
    let place := max s.optionLetters 1
    let done (index : Nat) : Action Nat := finish index "?" none 0 1
    match arg? with
    | none => done index
    | some arg =>
      if arg = "--" then return ← done next
      if !arg.startsWith "-" || arg = "-" then return ← done index
      match arg.drop place with
      | [] => done next
      | c :: rest =>
        let letters := if rest.isEmpty then 0 else place + 1
        match if c = '?' || c = ':' then none else known.findIdx? (· = c) with
        | some n =>
          if known[n + 1]? ≠ some (CodePoint.char ':') then return ← finish next [c] none letters 0
          if !rest.isEmpty then return ← finish next [c] (some rest) 0 0
          match given[next - 1]? with
          | some value => finish (next + 1) [c] (some value) 0 0
          | none =>
            if isQuiet then finish next ":" (some [c]) 0 0
            else
              tell ("No arg for -" ++ [c] ++ " option\n")
              finish next "?" none 0 0
        | none =>
          if isQuiet then finish next "?" (some [c]) letters 0
          else
            tell ("Illegal option -" ++ [c] ++ "\n")
            finish next "?" none letters 0
  | _ => abort "Usage: getopts optstring var [arg...]"

end Builtin

end CallTrace.Shell
