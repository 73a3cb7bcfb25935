import CallTrace.Shell.Builtin.Option
import CallTrace.Shell.Field

namespace CallTrace.Shell.Expansion

open Shell.Action

/-- The arguments in one text, the first separator between each two of them. -/
def joined (arguments : List Text) : Action Text := do
  let separator : Text := match ← value? "IFS" with
    | none => " "
    | some t => t.take 1
  return Text.join separator arguments

def isAll (name : Text) : Bool := name = "@" || name = "*"

/-- The value of a parameter. -/
def parameter? (name : Text) : Action (Option Text) := do
  let s ← get
  if name = "#" then return some (Text.ofNat s.arguments.length)
  if name = "?" then return some (Text.ofNat s.status)
  if name = "$" then return some (Text.ofNat s.main)
  if name = "!" then return s.last.map Text.ofNat
  if name = "-" then return some (Builtin.setLetters s.options)
  if isAll name then return some (← joined s.arguments)
  match Numeral.count? name with
  | some 0 => return some s.name
  | some (n + 1) => return s.arguments[n]?
  | none => value? name

/-- A value as a piece of a word. -/
def valuePiece (isQuoted : Bool) (t : Text) : Piece := if isQuoted then .text true t else .value t

/-- Pieces with a gap between each two of them. -/
def withGaps : List Piece → List Piece
  | p :: q :: ps => p :: .gap :: withGaps (q :: ps)
  | ps => ps

/-- The pieces that a parameter stands for, which has a value. -/
def parameterPieces (isQuoted splits : Bool) (name value : Text) : Action (List Piece) := do
  let arguments := (← get).arguments
  if name = "@" && isQuoted && splits && arguments.isEmpty then return [.nothing]
  if name = "@" && !splits then return [.text true (Text.join " " arguments)]
  if name = "@" || (name = "*" && !isQuoted && splits) then
    return withGaps (arguments.map (valuePiece isQuoted))
  return [valuePiece isQuoted value]

def refuseUnset (name : Text) : Action α := abort (name ++ ": parameter not set")

/-- The home directory in place of a tilde at the beginning of a word. -/
def withHome (w : Word) : Action Word := do
  match w with
  | .text false (.char '~' :: t) :: parts =>
    let user := t.takeWhile (· ≠ .char '/')
    if user.length = t.length && !parts.isEmpty then return w
    let home? ← if user.isEmpty then value? "HOME" else pure (if user = "root" then some "/root" else none)
    match home? with
    | some home => return .text true home :: .text false (t.drop user.length) :: parts
    | none => return w
  | _ => return w

/-- The home directory in place of tildes at the beginning of a value and behind its colons. -/
def withHomes (isFirst : Bool) : Word → Action Word
  | [] => return []
  | .text false t :: parts => do
    let mut done : Word := []
    let mut isStart := isFirst
    let pieces := t.split ':'
    let mut left := pieces.length
    for piece in pieces do
      left := left - 1
      let w : Word := .text false piece :: if left = 0 then parts.take 1 else []
      let w ← if isStart then withHome w else pure w
      done := done ++ (if left = 0 then w.take (w.length - (parts.take 1).length) else w ++ [.text false ":"])
      isStart := true
    return done ++ (← withHomes false parts)
  | part :: parts => return part :: (← withHomes false parts)

def withoutLineEnds (t : Text) : Text := (t.reverse.dropWhile (· = .char '\n')).reverse

end CallTrace.Shell.Expansion
