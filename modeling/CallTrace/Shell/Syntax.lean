import CallTrace.Text.Utf

namespace CallTrace

namespace Text

/-- Octets as text, a code point for each. -/
def ofOctets (bs : Octets) : Text := bs.map fun b => .ofNat b.toNat

/-- The octets that code points below 256 stand for. -/
def toOctets (t : Text) : Octets := t.map fun c => c.toNat.toUInt8

end Text

namespace Shell

/-- What stands in for a parameter without a value, or tests for one. -/
inductive Instead where
  /-- The word itself. -/
  | use
  /-- The word, which also becomes the value. -/
  | assign
  /-- The end of the shell. -/
  | fail
  /-- The word in place of a value that is there. -/
  | replace
deriving DecidableEq

inductive Side where
  | front
  | back
deriving DecidableEq

/-- How a file is opened. -/
inductive Opening where
  | read
  | write
  /-- Even where files are not to be written over. -/
  | overwrite
  | append
  | both
deriving DecidableEq

mutual

/-- A part of a word; what is quoted is kept together and matches nothing but itself. -/
inductive Part where
  | text (isQuoted : Bool) (t : Text)
  | parameter (isQuoted : Bool) (name : Text) (use : Use)
  /-- What a script writes. -/
  | output (isQuoted : Bool) (script : Command)
  /-- The value of an arithmetic expression. -/
  | sum (isQuoted : Bool) (expression : List Part)

/-- What is made of the value of a parameter. -/
inductive Use where
  | plain
  | size
  | instead (how : Instead) (whereEmpty : Bool) (word : List Part)
  | cut (side : Side) (longest : Bool) (pattern : List Part)
  | bad

inductive Redirection where
  | file (stream : Nat) (opening : Opening) (name : List Part)
  /-- The same as another stream, or closed. -/
  | copy (stream : Nat) (source : List Part)
  /-- Text that stands in the script, by its number among such texts. -/
  | document (stream : Nat) (number : Nat)

inductive Command where
  | nothing
  | simple (line : Nat) (assignments : List (Text × List Part)) (words : List (List Part))
    (redirections : List Redirection)
  | redirected (line : Nat) (c : Command) (redirections : List Redirection)
  | subshell (line : Nat) (c : Command) (redirections : List Redirection)
  | pipeline (cs : List Command)
  | background (c : Command)
  | sequence (first second : Command)
  | both (first second : Command)
  | either (first second : Command)
  | negated (c : Command)
  | choice (test yes : Command) (no : Option Command)
  | loop (untilTrue : Bool) (test body : Command)
  /-- Without words, the arguments of the script are gone through. -/
  | forEach (line : Nat) (name : Text) (words : Option (List (List Part))) (body : Command)
  | cases (line : Nat) (word : List Part) (branches : List (List (List Part) × Command))
  | function (line : Nat) (name : Text) (body : Command)

end

abbrev Word := List Part

instance : Inhabited Command := ⟨.nothing⟩

/-- The text of a word in which nothing is quoted and nothing stands for something else. -/
def Word.literal? : Word → Option Text
  | [.text false t] => some t
  | _ => none

def isNameStart (c : CodePoint) : Bool := c = '_' || c.isWithin 'a' 'z' || c.isWithin 'A' 'Z'

def isNamePart (c : CodePoint) : Bool := isNameStart c || c.isDigit

def isName : Text → Bool
  | [] => false
  | c :: t => isNameStart c && t.all isNamePart

end Shell

end CallTrace
