import CallTrace.Shell.Syntax

namespace CallTrace.Shell

inductive Token where
  | ending
  | newline
  | semicolon
  | ampersand
  | and
  | or
  | pipe
  | openParen
  | closeParen
  | endCase
  | redirection (stream : Option Nat) (operator : Text)
  | word (w : Word)
  | keyword (k : Text)

namespace Token

/-- The words that are keywords where a command may start. -/
def keywords : List Text := [
  "!", "case", "do", "done", "elif", "else", "esac", "fi", "for", "if", "in", "then", "until", "while",
  "\x7b", "\x7d"]

/-- A word as a keyword, if it is one. -/
def asKeyword : Token → Token
  | .word w => match Word.literal? w with
    | some t => if t.isOneOf keywords then .keyword t else .word w
    | none => .word w
  | t => t

def inQuotes (t : Text) : Text := "\"" ++ t ++ "\""

/-- A token as messages name it. -/
def title : Token → Text
  | .ending => "end of file"
  | .newline => "newline"
  | .semicolon => inQuotes ";"
  | .ampersand => inQuotes "&"
  | .and => inQuotes "&&"
  | .or => inQuotes "||"
  | .pipe => inQuotes "|"
  | .openParen => inQuotes "("
  | .closeParen => inQuotes ")"
  | .endCase => inQuotes ";;"
  | .redirection .. => "redirection"
  | .word _ => "word"
  | .keyword k => inQuotes k

/-- The keywords and marks behind which a list of commands may end. -/
def closers : List Text := ["do", "done", "elif", "else", "esac", "fi", "then", "\x7d"]

def closesList : Token → Bool
  | .ending | .closeParen | .endCase => true
  | .keyword k => k.isOneOf closers
  | _ => false

def isKeyword (k : Text) : Token → Bool
  | .keyword l => k = l
  | _ => false

def isCloseParen : Token → Bool
  | .closeParen => true
  | _ => false

def unexpected (got : Token) (expected : Option Token) : Text :=
  got.title ++ " unexpected" ++
    match expected with
    | none => ""
    | some t => " (expecting " ++ t.title ++ ")"

end Token

/-- The line that ends a text which stands in a script. -/
structure Mark where
  text : Text
  /-- Tabs do not count in front of lines. -/
  cutsTabs : Bool

/-- A text that a redirection refers to, and that stands behind the line at hand. -/
structure Pending where
  number : Nat
  mark : Mark
  /-- Nothing has a meaning in the text but its mark. -/
  isQuoted : Bool

/-- The rest of a script. -/
structure Source where
  rest : Text
  line : Nat := 1
  /-- A token that was read and is to be read again. -/
  pushed : Option Token := none
  /-- The texts that are to come, and those that have been read. -/
  pending : List Pending := []
  documents : List (Nat × Word) := []
  /-- The number of the next text. -/
  nextDocument : Nat := 0
  /-- What ends the text that is being read. -/
  mark? : Option Mark := none
  /-- The texts that words stand for, and the words that they have just replaced. -/
  aliases : List (Text × Text) := []
  replaced : List Text := []

/-- What reads a script; a fault is told by its words. -/
abbrev Parser := EStateM Text Source

namespace Parser

def peek : Parser (Option CodePoint) := return (← get).rest.head?

def upcoming (t : Text) : Parser Bool := return (← get).rest.startsWith t

/-- Takes a code point. -/
def skip : Parser Unit := modify fun s =>
  match s.rest with
  | .char '\n' :: t => { s with rest := t, line := s.line + 1 }
  | _ => { s with rest := s.rest.tail }

/-- Takes so many code points, none of which ends a line. -/
def skipAll (count : Nat) : Parser Unit := modify fun s => { s with rest := s.rest.drop count }

/-- Takes code points for as long as they pass a test. No line end passes it. -/
def run (p : CodePoint → Bool) : Parser Text := do
  let t := (← get).rest.takeWhile p
  skipAll t.length
  return t

def push (t : Token) : Parser Unit := modify fun s => { s with pushed := some t }

def fail (got : Token) (expected : Option Token) : Parser α := throw (got.unexpected expected)

/-- What is left behind blanks, comments and line ends that a backslash undoes, and how many of these there
were. -/
def behindBlanks (inComment : Bool) (lines : Nat) : Text → Text × Nat
  | [] => ([], lines)
  | .char '\\' :: .char '\n' :: t =>
    if inComment then (.char '\n' :: t, lines) else behindBlanks false (lines + 1) t
  | c :: t =>
    if c = '\n' then (c :: t, lines)
    else if inComment || c = ' ' || c = '\t' then behindBlanks inComment lines t
    else if c = '#' then behindBlanks true lines t
    else (c :: t, lines)

def skipBlanks : Parser Unit := modify fun s =>
  let (rest, lines) := behindBlanks false 0 s.rest
  { s with rest, line := s.line + lines }

/-- The marks that are tokens, longer ones first. -/
def marks : List (Text × Token) := [
  ("&&", .and), ("&", .ampersand), ("||", .or), ("|", .pipe), (";;", .endCase), (";", .semicolon),
  ("(", .openParen), (")", .closeParen)]

def operators : List Text := [">>", ">&", ">|", ">", "<<-", "<<", "<&", "<>", "<"]

/-- A mark, if one comes next. -/
def mark? : Parser (Option Token) := do
  let s ← get
  match marks.find? fun m => s.rest.startsWith m.1 with
  | some (t, token) =>
    skipAll t.length
    return some token
  | none => return none

/-- The operator of a redirection, if one comes next. -/
def operator? : Parser (Option Text) := do
  let s ← get
  match operators.find? s.rest.startsWith with
  | some t =>
    skipAll t.length
    return some t
  | none => return none

/-- The stream that a word in front of an operator names; a word that names none is no part of it. -/
def stream? : Word → Option (Option Nat)
  | [] => some none
  | w => match Word.literal? w with
    | some [c] => if c.isDigit then some (some (c.distance '0')) else none
    | _ => none

end Parser

end CallTrace.Shell
