import CallTrace.Shell.Numeral

namespace CallTrace.Shell.Arithmetic

inductive Symbol where
  | number (n : Int64)
  | name (t : Text)
  | operator (t : Text)
  /-- A code point that no symbol starts with. -/
  | stray
deriving DecidableEq

/-- The operators, longer ones first. -/
def operators : List Text := Text.split ' '
  "<<= >>= <= >= == != << >> && || *= /= %= += -= &= |= ^= < > = ! & | ^ * / % + - ~ ( ) ? :"

/-- The symbols of a text, so many code points of it being passed over. -/
def symbols (passed : Nat) : Text → List Symbol
  | [] => []
  | c :: t =>
    if 0 < passed then symbols (passed - 1) t
    else if c = ' ' || c = '\t' || c = '\n' then symbols 0 t
    else if isNameStart c then
      let more := t.takeWhile isNamePart
      .name (c :: more) :: symbols more.length t
    else
      match Numeral.unsigned? .marked (c :: t) with
      | some (n, rest) => .number (.ofInt (Numeral.clamped n)) :: symbols (t.length - rest.length) t
      | none =>
        match operators.find? (Text.startsWith (c :: t)) with
        | some op => .operator op :: symbols (op.length - 1) t
        | none => .stray :: symbols 0 t

structure State where
  rest : List Symbol
  /-- The whole text, for messages. -/
  text : Text
  /-- The values of names. -/
  value : Text → Text
  /-- What was assigned, last first. -/
  assigned : List (Text × Int64)

/-- What works an expression out; a fault is told by its words. -/
abbrev Reckoning := EStateM Text State

def fail (fault : Text) : Reckoning α := do
  throw ("arithmetic expression: " ++ fault ++ ": \"" ++ (← get).text ++ "\"")

/-- Takes an operator if it comes next. -/
def accept (op : Text) : Reckoning Bool := do
  let s ← get
  match s.rest with
  | .operator next :: rest =>
    if next = op then set { s with rest }
    return next = op
  | _ => return false

def valueOf (name : Text) : Reckoning Int64 := do
  let s ← get
  match s.assigned.lookup name with
  | some n => return n
  | none =>
    let t := s.value name
    match Numeral.whole? .marked t with
    | some n => return .ofInt n
    | none => if t.all Numeral.isSpace then return 0 else throw (("Illegal number: " : Text) ++ t)

def ofBool (b : Bool) : Int64 := if b then 1 else 0

/-- What an operator makes of two numbers. -/
def apply (op : Text) (a b : Int64) : Reckoning Int64 := do
  if (op = "/" || op = "%") && b = 0 then fail "division by zero"
  return if op = "*" then a * b
    else if op = "/" then a / b
    else if op = "%" then a % b
    else if op = "+" then a + b
    else if op = "-" then a - b
    else if op = "<<" then a <<< b
    else if op = ">>" then a >>> b
    else if op = "<" then ofBool (a < b)
    else if op = "<=" then ofBool (a ≤ b)
    else if op = ">" then ofBool (b < a)
    else if op = ">=" then ofBool (b ≤ a)
    else if op = "==" then ofBool (a = b)
    else if op = "!=" then ofBool (a ≠ b)
    else if op = "&" then a &&& b
    else if op = "^" then a ^^^ b
    else a ||| b

/-- The operators between two numbers by how strongly they bind. -/
def levels : List (Text × Nat) := [
  ("*", 8), ("/", 8), ("%", 8), ("+", 7), ("-", 7), ("<<", 6), (">>", 6), ("<", 5), ("<=", 5), (">", 5),
  (">=", 5), ("==", 4), ("!=", 4), ("&", 3), ("^", 2), ("|", 1)]

def assigners : List Text := ["=", "*=", "/=", "%=", "+=", "-=", "<<=", ">>=", "&=", "^=", "|="]

mutual

/-- A number, a name, or an expression in brackets, behind its signs. What is not live has no effect and
does not fail. -/
def primary (fuel : Nat) (live : Bool) : Reckoning Int64 :=
  match fuel with
  | 0 => fail "expecting primary"
  | fuel + 1 => do
    let s ← get
    match s.rest with
    | .number n :: rest =>
      set { s with rest }
      return n
    | .name x :: rest =>
      set { s with rest }
      if live then valueOf x else return 0
    | _ =>
      if ← accept "(" then
        let n ← assignment fuel live
        if !(← accept ")") then fail "expecting ')'"
        return n
      else if ← accept "+" then primary fuel live
      else if ← accept "-" then return -(← primary fuel live)
      else if ← accept "!" then return ofBool ((← primary fuel live) = 0)
      else if ← accept "~" then return ~~~(← primary fuel live)
      else fail "expecting primary"

/-- Goes on behind a number as far as operators of some strength reach. -/
def operations (fuel : Nat) (live : Bool) (least : Nat) (a : Int64) : Reckoning Int64 :=
  match fuel with
  | 0 => fail "expecting primary"
  | fuel + 1 => do
    let s ← get
    match s.rest with
    | .operator op :: rest =>
      match levels.lookup op with
      | some level =>
        if level < least then return a
        set { s with rest }
        let b ← operations fuel live (level + 1) (← primary fuel live)
        operations fuel live least (← if live then apply op a b else pure b)
      | none => return a
    | _ => return a

def both (fuel : Nat) (live : Bool) : Reckoning Int64 :=
  match fuel with
  | 0 => fail "expecting primary"
  | fuel + 1 => do
    let a ← operations fuel live 1 (← primary fuel live)
    if ← accept "&&" then
      let b ← both fuel (live && a ≠ 0)
      return ofBool (a ≠ 0 && b ≠ 0)
    else return a

def either (fuel : Nat) (live : Bool) : Reckoning Int64 :=
  match fuel with
  | 0 => fail "expecting primary"
  | fuel + 1 => do
    let a ← both fuel live
    if ← accept "||" then
      let b ← either fuel (live && a = 0)
      return ofBool (a ≠ 0 || b ≠ 0)
    else return a

def conditional (fuel : Nat) (live : Bool) : Reckoning Int64 :=
  match fuel with
  | 0 => fail "expecting primary"
  | fuel + 1 => do
    let a ← either fuel live
    if ← accept "?" then
      let b ← assignment fuel (live && a ≠ 0)
      if !(← accept ":") then fail "expecting ':'"
      let c ← conditional fuel (live && a = 0)
      return if a = 0 then c else b
    else return a

def assignment (fuel : Nat) (live : Bool) : Reckoning Int64 :=
  match fuel with
  | 0 => fail "expecting primary"
  | fuel + 1 => do
    let s ← get
    match s.rest with
    | .name x :: .operator op :: rest =>
      if !op.isOneOf assigners then conditional fuel live
      else
        set { s with rest }
        let n ← assignment fuel live
        if !live then return n
        let n ← if op = "=" then pure n else apply op.dropLast (← valueOf x) n
        modify fun s => { s with assigned := (x, n) :: s.assigned }
        return n
    | _ => conditional fuel live

end

/-- A whole expression. -/
def expression : Reckoning Int64 := do
  let s ← get
  let n ← assignment (8 * s.rest.length + 8) true
  if !(← get).rest.isEmpty then fail "expecting EOF"
  return n

/-- Works out an expression over the values of names: the number that it comes to and what it assigns,
first assignments first. -/
def evaluate (value : Text → Text) (t : Text) : Except Text (Int64 × List (Text × Int64)) :=
  match expression.run ⟨symbols 0 t, t, value, []⟩ with
  | .ok n s => .ok (n, s.assigned.reverse)
  | .error fault _ => .error fault

end CallTrace.Shell.Arithmetic
