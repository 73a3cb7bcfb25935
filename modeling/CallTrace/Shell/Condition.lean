import CallTrace.Shell.State

namespace CallTrace.Shell.Condition

/-- The operators between two words. -/
def binaries : List Text := [
  "=", "!=", "<", ">", "-eq", "-ne", "-ge", "-gt", "-le", "-lt", "-nt", "-ot", "-ef"]

/-- The operators in front of a word. -/
def unaries : List Text := Text.split ' ' "-r -w -x -e -f -d -c -b -p -u -g -k -s -t -z -n -h -O -G -L -S"

def isBinary (t : Text) : Bool := t.isOneOf binaries

structure State where
  words : Array Text
  position : Nat
  kind : Text → Option Kind

/-- What decides a condition; a fault is told by its words. -/
abbrev Test := EStateM Text State

def word? (ahead : Nat) : Test (Option Text) := do
  let s ← get
  return s.words[s.position + ahead]?

def advance (n : Nat) : Test PUnit := modify fun s => { s with position := s.position + n }

def isAt (ahead : Nat) (t : Text) : Test Bool := return (← word? ahead) = some t

/-- Whether an operator in front of a word is meant as a word itself: nothing follows it, or an operator
between it and the word behind that one. -/
def isOperand : Test Bool := do
  match ← word? 1, ← word? 2 with
  | none, _ => return true
  | some _, none => return false
  | some next, some _ => return isBinary next

def numberOf (t : Text) : Test Int :=
  match Numeral.whole? .decimal t with
  | some n => return n
  | none => throw (("Illegal number: " : Text) ++ t)

def compare (a op b : Text) : Test Bool := do
  if op = "=" then return a = b
  if op = "!=" then return a ≠ b
  if op = "<" then return a ≠ b && a.atMost b
  if op = ">" then return a ≠ b && b.atMost a
  if op.isOneOf ["-nt", "-ot"] then return false
  if op = "-ef" then return a = b && ((← get).kind a).isSome
  let m ← numberOf a
  let n ← numberOf b
  if op = "-eq" then return m = n
  if op = "-ne" then return m ≠ n
  if op = "-ge" then return n ≤ m
  if op = "-gt" then return n < m
  if op = "-le" then return m ≤ n
  return m < n

def check (op t : Text) : Test Bool := do
  if op = "-z" then return t.isEmpty
  if op = "-n" then return !t.isEmpty
  if op = "-t" then
    let _ ← numberOf t
    return false
  match (← get).kind t with
  | none => return false
  | some k =>
    if op.isOneOf ["-r", "-w", "-e", "-O", "-G"] then return true
    if op = "-d" then return k = .directory
    if op = "-c" then return k = .device
    if op = "-f" then
      return match k with
        | .file _ | .program => true
        | _ => false
    if op = "-x" then
      return match k with
        | .directory | .program => true
        | _ => false
    if op = "-s" then
      return match k with
        | .file n => 0 < n
        | .device => false
        | _ => true
    return false

mutual

/-- The words from here on in which one of several conditions has to hold. It ends at the last word that it
takes. -/
def either (fuel : Nat) : Test Bool :=
  match fuel with
  | 0 => return false
  | fuel + 1 => do
    let a ← both fuel
    if ← isAt 1 "-o" then
      advance 2
      let b ← either fuel
      return a || b
    else return a

def both (fuel : Nat) : Test Bool :=
  match fuel with
  | 0 => return false
  | fuel + 1 => do
    let a ← negation fuel
    if ← isAt 1 "-a" then
      advance 2
      let b ← both fuel
      return a && b
    else return a

def negation (fuel : Nat) : Test Bool :=
  match fuel with
  | 0 => return false
  | fuel + 1 => do
    if ← isAt 0 "!" then
      if (← word? 1).isSome then
        advance 1
        return !(← negation fuel)
      else return true
    else single fuel

def single (fuel : Nat) : Test Bool :=
  match fuel with
  | 0 => return false
  | fuel + 1 => do
    match ← word? 0 with
    | none => return false
    | some t =>
      let next ← word? 1
      if t = "(" && next.isSome then
        advance 1
        if ← isAt 0 ")" then return false
        let b ← either fuel
        advance 1
        if !(← isAt 0 ")") then throw (Text.ofString "closing paren expected")
        return b
      if t.isOneOf unaries && !(← isOperand) then
        match next with
        | some operand =>
          advance 1
          check t operand
        | none => throw (t ++ ": argument expected")
      else
        match next with
        | some op =>
          if isBinary op then
            match ← word? 2 with
            | some b =>
              advance 2
              compare t op b
            | none => throw (op ++ ": argument expected")
          else return !t.isEmpty
        | none => return !t.isEmpty

end

def whole (fuel : Nat) : Test Bool := do
  let b ← either fuel
  match ← word? 0, ← word? 1 with
  | some t, some _ => throw (t ++ ": unexpected operator")
  | _, _ => return b

/-- Decides a condition of some words. Conditions of three and four words are taken as what they most
likely are. -/
def decideWords (kind : Text → Option Kind) : List Text → Except Text Bool
  | [] => .ok false
  | first :: rest =>
    let plain (ws : List Text) : Except Text Bool :=
      match (whole (8 * ws.length + 8)).run ⟨ws.toArray, 0, kind⟩ with
      | .ok b _ => .ok b
      | .error fault _ => .error fault
    let words := first :: rest
    if words.length = 3 && rest.head?.any isBinary then
      match rest with
      | [op, b] =>
        match (compare first op b).run ⟨#[], 0, kind⟩ with
        | .ok b _ => .ok b
        | .error fault _ => .error fault
      | _ => .ok false
    else if words.length = 3 || words.length = 4 then
      if first = "(" && words.getLast? = some (Text.ofString ")") then plain (rest.dropLast)
      else if first = "!" then (decideWords kind rest).map (!·)
      else plain words
    else plain words

end CallTrace.Shell.Condition
