import CallTrace.FileTree
import CallTrace.Shell.Pattern

namespace CallTrace.Shell

/-- A piece of what a word comes to. -/
inductive Piece where
  | text (isQuoted : Bool) (t : Text)
  /-- A value that is cut into fields. -/
  | value (t : Text)
  /-- The place between two arguments, where a field ends. -/
  | gap
  /-- What stands for all arguments where there are none. -/
  | nothing

namespace Piece

def plainText : Piece → Text
  | .text _ t | .value t => t
  | .gap => " "
  | .nothing => []

def pattern : Piece → Pattern
  | .text isQuoted t => Pattern.ofText isQuoted t
  | .value t => Pattern.ofText false t
  | .gap => Pattern.ofText true " "
  | .nothing => []

/-- A piece of a word that takes the place of a value, and is cut like it. -/
def asValue : Piece → Piece
  | .text false t => .value t
  | p => p

end Piece

namespace Field

/-- Whether a code point that cuts is a blank. -/
def isBlank (c : CodePoint) : Bool := c = ' ' || c = '\t' || c = '\n'

structure State where
  /-- Last one first. -/
  done : List Pattern := []
  /-- The field at hand, its last letter first. -/
  current : Option Pattern := none
  /-- Whether blanks have just ended a field. -/
  isBehindBlank : Bool := false
  isVoid : Bool := false

def State.finish (s : State) : State :=
  match s.current with
  | some field => { s with done := field.reverse :: s.done, current := none }
  | none => s

def State.add (s : State) (p : Pattern) : State :=
  { s with current := some (p.reverse ++ s.current.getD []), isBehindBlank := false }

/-- Goes on by a code point of a value. -/
def State.read (separators : Text) (s : State) (c : CodePoint) : State :=
  if !separators.contains c then s.add [⟨c, false⟩]
  else if isBlank c then
    if s.current.isSome then { s.finish with isBehindBlank := true } else s
  else if s.current.isSome then { s.finish with isBehindBlank := false }
  else if s.isBehindBlank then { s with isBehindBlank := false }
  else { s with done := [] :: s.done }

def State.step (separators : Text) (s : State) : Piece → State
  | .text isQuoted t =>
    if t.isEmpty && (!isQuoted || (s.isVoid && s.current.isNone)) then s else s.add (Pattern.ofText isQuoted t)
  | .value t => t.foldl (State.read separators) s
  | .gap => s.finish
  | .nothing => { s with isVoid := true }

/-- The fields of some pieces, cut at separators. -/
def ofPieces (separators : Text) (ps : List Piece) : List Pattern :=
  (ps.foldl (State.step separators) {}).finish.done.reverse

/-- Whether a field may stand for the names of files. -/
def hasSigns (p : Pattern) : Bool := p.any fun l => l.isSign '*' || l.isSign '?' || l.isSign '['

/-- A pattern cut at its slashes. -/
def components : Pattern → List Pattern
  | [] => [[]]
  | l :: p =>
    if l.point = '/' then [] :: components p
    else
      match components p with
      | first :: more => (l :: first) :: more
      | [] => [[l]]

/-- The names in a directory. -/
def entries (tree : FileTree) (p : Place) : List Text :=
  (tree.below p).filterMap fun (names, _) => match names with
    | [name] => some name
    | _ => none

/-- The paths that patterns lead to from a place, each behind the path so far. -/
def paths (tree : FileTree) (p : Place) (path : Text) : List Pattern → List Text
  | [] => [path]
  | component :: more =>
    let rest (name : Text) (q : Place) : List Text :=
      if more.isEmpty then [path ++ name]
      else if tree.find? q = some .directory then paths tree q (path ++ name ++ "/") more
      else []
    if hasSigns component then
      let isHidden := component.head?.any (·.isSign '.')
      let names := (entries tree p).filter fun name =>
        (isHidden || !name.startsWith ".") && component.accepts name
      (Text.sorted names).flatMap fun name => rest name (p ++ [name])
    else
      let name := component.text
      match tree.follow name p [name] with
      | .ok q => if more.isEmpty && !(tree.find? q).isSome then [] else rest name q
      | .error _ => []

/-- The paths that a field stands for: itself, if there are none. -/
def expanded (fs : Files) (field : Pattern) : List Text :=
  if !hasSigns field then [field.text]
  else
    let found := match components field with
      | [] :: more => paths fs.tree [] "/" more
      | all => paths fs.tree fs.here [] all
    if found.isEmpty then [field.text] else found

end Field

end CallTrace.Shell
