import CallTrace.Shell.Program.Writing

namespace CallTrace.Shell

namespace Program

def tee : Program := fun args => withOptions "ai" [] args (fun o => do
  match ← contents "-" with
  | .error _ => return 1
  | .ok t =>
    write t
    let mut status := 0
    for name in o.operands do
      match ← Action.openToWrite name (o.has 'a') true with
      | .ok stream =>
        Action.setStream 9 (some stream)
        let _ ← Action.emit 9 t
      | .error _ =>
        complain (inLine name ++ ": No such file or directory")
        status := 1
    return status) 1

/-- A line without its end. -/
def bare (line : Text) : Text := if line.endsWith "\n" then line.dropLast else line

/-- The lines of all that is read under some names. -/
def allLines (names : List Text) : Action (List Text × Nat) := do
  let mut status := 0
  let mut all : List Text := []
  for name in if names.isEmpty then alone else names do
    match ← contents name with
    | .error f =>
      complain (inLine name ++ ": " ++ reason f)
      status := 1
    | .ok t => all := all ++ (lines t).map bare
  return (all, status)

/-- The number that a line begins with. -/
def lineNumber (line : Text) : Int := ((Numeral.signed? .decimal line).map (·.1)).getD 0

def sort : Program := fun args => withOptions "nrufb" "kto" args (fun o => do
  let (all, status) ← allLines o.operands
  let before (a b : Text) : Bool :=
    if o.has 'n' then
      lineNumber a < lineNumber b || (lineNumber a = lineNumber b && a.atMost b)
    else a.atMost b
  let sorted := all.mergeSort before
  let sorted := if o.has 'r' then sorted.reverse else sorted
  let sorted := if o.has 'u' then sorted.eraseDups else sorted
  write (Text.concat (sorted.map (· ++ "\n")))
  return if status = 0 then 0 else 2) 2

/-- Runs of equal lines, with their lengths. -/
def runs : List Text → List (Nat × Text)
  | [] => []
  | line :: more =>
    match runs more with
    | (n, next) :: rest => if next = line then (n + 1, line) :: rest else (1, line) :: (n, next) :: rest
    | [] => [(1, line)]

def uniq : Program := fun args => withOptions "cdu" [] args (fun o => do
  let (all, status) ← allLines (o.operands.take 1)
  for (n, line) in runs all do
    if !(o.has 'd' && n = 1) && !(o.has 'u' && 1 < n) then
      write ((if o.has 'c' then inColumn 7 n ++ " " else [] : Text) ++ line ++ "\n")
  return status) 1

/-- The numbers that a list with hyphens names, as ranges. -/
def fieldRanges (t : Text) : List (Nat × Nat) := (t.split ',').map fun part =>
  match part.split '-' with
  | [a, b] => ((Numeral.count? a).getD 1, if b.isEmpty then twoPow 40 else (Numeral.count? b).getD 0)
  | _ => let n := (Numeral.count? part).getD 0; (n, n)

def cut : Program := fun args => withOptions "sn" "dfcb" args (fun o => do
  let (all, status) ← allLines o.operands
  let mark := ((o.value? 'd').getD "\t").headD '\t'
  let inRanges (ranges : List (Nat × Nat)) (n : Nat) : Bool := ranges.any fun r => r.1 ≤ n && n ≤ r.2
  for line in all do
    match o.value? 'f', (o.value? 'c').orElse fun _ => o.value? 'b' with
    | some fields, _ =>
      let parts := line.split mark
      let kept := (parts.zipIdx 1).filterMap fun (part, n) =>
        if inRanges (fieldRanges fields) n then some part else none
      if 1 < parts.length then write (Text.join [mark] kept ++ "\n")
      else if !o.has 's' then write (line ++ "\n")
    | none, some columns =>
      let kept := (line.zipIdx 1).filterMap fun (c, n) =>
        if inRanges (fieldRanges columns) n then some c else none
      write (kept ++ "\n")
    | none, none => pure ⟨⟩
  return status) 1

/-- Whether a text stands somewhere in a line. -/
def contains (t : Text) : Text → Bool
  | [] => t.isEmpty
  | c :: line => t.isPrefixOf (c :: line) || contains t line

def grep : Program := fun args => withOptions "qvcinFExs" "e" args (fun o => do
  let (pattern, names) := match o.value? 'e', o.operands with
    | some t, names => (t, names)
    | none, t :: names => (t, names)
    | none, [] => ([], [])
  let (all, status) ← allLines names
  let small (t : Text) : Text := if o.has 'i' then Real.lowered t else t
  let fromStart := pattern.startsWith "^"
  let atEnd := pattern.endsWith "$"
  let core := small (if fromStart then pattern.drop 1 else pattern)
  let core := if atEnd then core.dropLast else core
  let fits (line : Text) : Bool :=
    let line := small line
    (match fromStart, atEnd with
      | true, true => line = core
      | true, false => line.startsWith core
      | false, true => line.endsWith core
      | false, false => contains core line) != o.has 'v'
  let found := (all.zipIdx 1).filter fun (line, _) => fits line
  if o.has 'q' then pure ⟨⟩
  else if o.has 'c' then write (Text.ofNat found.length ++ "\n")
  else
    for (line, n) in found do
      write ((if o.has 'n' then Text.ofNat n ++ ":" else [] : Text) ++ line ++ "\n")
  return if status ≠ 0 then 2 else if found.isEmpty then 1 else 0) 2

end Program

end CallTrace.Shell
