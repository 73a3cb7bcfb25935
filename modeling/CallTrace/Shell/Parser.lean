import CallTrace.Shell.Token

namespace CallTrace.Shell

/-- What a word stands in, which tells where it ends. -/
inductive Context where
  | bare
  | quotes
  /-- Text that stands in the script, from a redirection on. -/
  | document
  | braces (isQuoted : Bool)
  /-- An arithmetic expression, so many brackets being open. -/
  | sum (depth : Nat)
deriving DecidableEq

namespace Context

def isQuoted : Context → Bool
  | .bare => false
  | .braces isQuoted => isQuoted
  | _ => true

def isInBraces : Context → Bool
  | .braces .. => true
  | _ => false

/-- The code points that mean something. -/
def marks : Context → Text
  | .bare => " \t\n;&|<>()$\x60\\'\""
  | .quotes => "\n\"$\x60\\"
  | .document => "\n$\x60\\"
  | .braces false => "\n\x7d$\x60\\'\""
  | .braces true => "\n\x7d$\x60\\\""
  | .sum _ => "\n()$\x60\\"

def isPlain (p : Context) (c : CodePoint) : Bool := !p.marks.contains c

/-- Whether a backslash takes away the meaning of a code point, and nothing else. -/
def escapes (p : Context) (c : CodePoint) : Bool :=
  !p.isQuoted || c = '\\' || c = '\x60' || c = '$' || (c = '"' && p ≠ .document) ||
    (c = '\x7d' && p.isInBraces)

/-- What is wrong with a word that the text ends in. -/
def unended (inDocument : Bool) : Context → Option Text
  | .bare | .document => none
  | .quotes | .braces true => some (if inDocument then "Missing '\x7d'" else "Unterminated quoted string")
  | .braces false => some "Missing '\x7d'"
  | .sum _ => some "Missing '))'"

end Context

namespace Parser

/-- Tells what is wrong with a script. -/
def wrong (fault : Text) : Parser α := throw fault

/-- The parameters whose names are no letters. -/
def signs : Text := "#?$!-*@"

/-- What a backslash makes of what follows it. -/
def escape (p : Context) : Parser Word := do
  skip
  match ← peek with
  | none => return [.text true "\\"]
  | some (.char '\n') =>
    skip
    return []
  | some c =>
    skip
    return [.text true (if p.escapes c then [c] else ['\\', c])]

/-- Text up to an apostrophe. -/
def verbatim : Parser Word := do
  skip
  let s ← get
  let t := s.rest.takeWhile (· ≠ .char '\'')
  set { s with rest := s.rest.drop (t.length + 1), line := s.line + t.count (CodePoint.char '\n') }
  if t.length = s.rest.length then wrong "Unterminated quoted string"
  return [.text true t]

/-- The text of a script between two marks, a backslash in front of some marks left out. -/
def quotedScript (done : Text) : Text → Option (Text × Text)
  | [] => none
  | [.char '\x60'] => some (done.reverse, [])
  | .char '\\' :: c :: t =>
    if c = '\x60' || c = '\\' || c = '$' then quotedScript (c :: done) t
    else quotedScript (c :: .char '\\' :: done) t
  | c :: t => if c = '\x60' then some (done.reverse, t) else quotedScript (c :: done) t

def instead? (c : CodePoint) : Option Instead :=
  [(CodePoint.char '-', Instead.use), (.char '=', .assign), (.char '?', .fail), (.char '+', .replace)].lookup c

def isSign (c : CodePoint) : Bool := signs.contains c || c.isDigit

/-- The name of a parameter in braces. -/
def bracedName : Parser Text := do
  match ← peek with
  | some c =>
    if isNameStart c then run isNamePart
    else if c.isDigit then run CodePoint.isDigit
    else if signs.contains c then
      skip
      return [c]
    else return []
  | none => return []

/-- Whether the size of a parameter is asked for, the mark for it being next. -/
def asksSize : Parser Bool := do
  match (← get).rest with
  | .char '#' :: c :: d :: _ =>
    return isNamePart c || (isSign c && d = '\x7d' && c ≠ '\x7d')
  | _ => return false

/-- The pattern behind the sign for one side, and whether the longest match is meant. -/
def side? : Parser (Option (Side × Bool)) := do
  for (t, s) in ([("##", Side.front, true), ("#", .front, false), ("%%", .back, true), ("%", .back, false)] :
      List (Text × Side × Bool)) do
    if ← upcoming t then
      skipAll t.length
      return some s
  return none

/-- The word behind the operator of a document, with the mark that it is inside, and whether some of it was
quoted. -/
def documentMark (isQuoted : Bool) (inside : Option CodePoint) (done : Text) : Text → Text × Bool × Text
  | [] => (done.reverse, isQuoted, [])
  | .char '\\' :: c :: t => documentMark true inside (c :: done) t
  | c :: t =>
    match inside with
    | some mark =>
      if c = mark then documentMark true none done t else documentMark true inside (c :: done) t
    | none =>
      if c = '\'' || c = '"' then documentMark true (some c) done t
      else if Context.bare.isPlain c || c = '$' then documentMark isQuoted none (c :: done) t
      else (done.reverse, isQuoted, c :: t)

def withoutTabs (t : Text) : Text := t.dropWhile (· = .char '\t')

/-- A document, which a line with nothing but its mark ends, and the lines behind that. -/
def documentLines (mark : Text) (cutTabs : Bool) (done : List Text) : List Text → Text × List Text
  | [] => (Text.join "\n" done.reverse, [])
  | line :: lines =>
    let line := if cutTabs then withoutTabs line else line
    if line = mark then (Text.concat (done.reverse.map fun t => t ++ Text.ofString "\n"), lines)
    else documentLines mark cutTabs (line :: done) lines

/-- Takes a document in which nothing has a meaning. -/
def verbatimDocument (mark : Mark) : Parser Word := modifyGet fun s =>
  let lines := Text.split '\n' s.rest
  let (body, left) := documentLines mark.text mark.cutsTabs [] lines
  ([.text true body],
    { s with rest := Text.join "\n" left, line := s.line + (lines.length - left.length) })

/-- What is left behind line ends that a backslash undoes, and how many of these there were. -/
def behindJoints (lines : Nat) : Text → Text × Nat
  | .char '\\' :: .char '\n' :: t => behindJoints (lines + 1) t
  | t => (t, lines)

/-- Begins a line of a document; where it is the last line, it is taken. -/
def takeMark : Parser Bool := do
  let s ← get
  match s.mark? with
  | none => return false
  | some mark =>
    let (rest, lines) := behindJoints 0 s.rest
    let rest := if mark.cutsTabs then withoutTabs rest else rest
    let line := rest.takeWhile (· ≠ .char '\n')
    if line = mark.text then
      set { s with rest := rest.drop (line.length + 1), line := s.line + lines + 1 }
      return true
    set { s with rest, line := s.line + lines }
    return false

/-- The parts of a word that the text ends in. -/
def ended (p : Context) (done : Word) : Parser Word := do
  match p.unended (← get).mark?.isSome with
  | some fault => wrong fault
  | none => return done.reverse

/-- Reads something with texts of its own: those that are to come behind it are left for later. -/
def apart (f : Parser α) : Parser α := do
  let s ← get
  set { s with pending := [], mark? := none }
  let a ← f
  modify fun t => { t with
    pending := s.pending, mark? := s.mark?, replaced := s.replaced
    documents := t.pending.map (fun d => (d.number, [])) ++ t.documents }
  return a

/-- An assignment, as the first words of a command may be. -/
def assignment? : Word → Option (Text × Word)
  | .text false t :: w =>
    let name := t.takeWhile isNamePart
    match t.drop name.length with
    | .char '=' :: value =>
      if isName name then some (name, if value.isEmpty then w else .text false value :: w) else none
    | _ => none
  | _ => none

/-- The commands that no function can take the place of. -/
def specials : List Text := [
  "break", "continue", ".", "eval", "exec", "exit", "export", "readonly", "local", "return", "set", "shift",
  "times", "trap", ":", "unset"]

/-- What has been read of a command without keywords. -/
structure Draft where
  assignments : List (Text × Word) := []
  words : List Word := []
  redirections : List Redirection := []

def Draft.add (d : Draft) (w : Word) : Draft :=
  match assignment? w, d.words with
  | some a, [] => { d with assignments := d.assignments ++ [a] }
  | _, _ => { d with words := d.words ++ [w] }

def Draft.command (line : Nat) (d : Draft) : Command := .simple line d.assignments d.words d.redirections

/-- The name of a function, if a bracket behind the words so far may begin one. -/
def Draft.function? (d : Draft) : Option Word :=
  match d.assignments, d.words, d.redirections with
  | [], [w], [] => some w
  | _, _, _ => none

/-- The text that a word has been set to stand for where a command starts. It is not looked up in itself. -/
def replacement? (w : Word) : Parser (Option Text) := do
  let s ← get
  match Word.literal? w with
  | none => return none
  | some name =>
    if name.isOneOf s.replaced then return none
    match s.aliases.lookup name with
    | none => return none
    | some text =>
      set { s with replaced := name :: s.replaced }
      return some text

def join (first : Option Command) (second : Command) : Command :=
  match first with
  | none => second
  | some c => .sequence c second

def tooDeep : Text := "the script nests too deep"

mutual

/-- The parts of a word up to its end, behind those read before, last one first. -/
def parts (fuel : Nat) (p : Context) (done : Word) : Parser Word :=
  match fuel with
  | 0 => wrong tooDeep
  | fuel + 1 => do
    let t ← run p.isPlain
    let done := if t.isEmpty then done else .text p.isQuoted t :: done
    match ← peek, p with
    | none, p => ended p done
    | some (.char '\\'), p => parts fuel p ((← escape p).reverse ++ done)
    | some (.char '$'), p =>
      skip
      parts fuel p ((← dollar fuel p) :: done)
    | some (.char '\x60'), p => parts fuel p ((← backquoted fuel p) :: done)
    | some (.char '"'), .quotes =>
      skip
      return (.text true [] :: done).reverse
    | some (.char '"'), p =>
      skip
      parts fuel p ((← parts fuel .quotes []).reverse ++ done)
    | some (.char '\''), p => parts fuel p ((← verbatim).reverse ++ done)
    | some (.char '('), .sum d =>
      skip
      parts fuel (.sum (d + 1)) (.text true "(" :: done)
    | some (.char ')'), .sum d =>
      skip
      match d with
      | d + 1 => parts fuel (.sum d) (.text true ")" :: done)
      | 0 =>
        if ← upcoming ")" then
          skip
          return done.reverse
        else parts fuel (.sum 0) (.text true ")" :: done)
    | some _, .bare => return done.reverse
    | some c, p =>
      skip
      if c ≠ '\n' then return done.reverse
      let done := .text p.isQuoted "\n" :: done
      if ← takeMark then ended p done else parts fuel p done

/-- What stands behind a dollar sign. -/
def dollar (fuel : Nat) (p : Context) : Parser Part :=
  match fuel with
  | 0 => wrong tooDeep
  | fuel + 1 => do
    if ← upcoming "((" then
      skipAll 2
      return .sum p.isQuoted (← parts fuel (.sum 0) [])
    match ← peek with
    | some (.char '(') =>
      skip
      let (script, t) ← apart do
        let script ← list fuel none true
        return (script, ← token fuel false false)
      match t with
      | .closeParen => return .output p.isQuoted script
      | t => fail t (some .closeParen)
    | some (.char '\x7b') =>
      skip
      braced fuel p
    | some c =>
      if isNameStart c then return .parameter p.isQuoted (← run isNamePart) .plain
      else if isSign c then
        skip
        return .parameter p.isQuoted [c] .plain
      else return .text p.isQuoted "$"
    | none => return .text p.isQuoted "$"

/-- A script between two marks. -/
def backquoted (fuel : Nat) (p : Context) : Parser Part :=
  match fuel with
  | 0 => wrong tooDeep
  | fuel + 1 => do
    skip
    let s ← get
    match quotedScript [] s.rest with
    | none =>
      set { s with line := s.line + s.rest.count (CodePoint.char '\n') }
      wrong "EOF in backquote substitution"
    | some (script, rest) =>
      set { s with rest := script, pushed := none, line := 1 }
      let c ← apart (list fuel none true)
      modify ({ · with rest, pushed := s.pushed, line := s.line + script.count (CodePoint.char '\n') })
      return .output p.isQuoted c

/-- A parameter in braces, the first of which has been read. -/
def braced (fuel : Nat) (p : Context) : Parser Part :=
  match fuel with
  | 0 => wrong tooDeep
  | fuel + 1 => do
    let inside : Context := .braces p.isQuoted
    if ← asksSize then
      skip
      let name ← bracedName
      if ← upcoming "\x7d" then
        skip
        return .parameter p.isQuoted name .size
      let _ ← parts fuel inside []
      return .parameter p.isQuoted name .bad
    let name ← bracedName
    if name.isEmpty then
      let _ ← parts fuel inside []
      return .parameter p.isQuoted name .bad
    if ← upcoming "\x7d" then
      skip
      return .parameter p.isQuoted name .plain
    match ← side? with
    | some (side, longest) =>
      return .parameter p.isQuoted name (.cut side longest (← parts fuel (.braces false) []))
    | none =>
      let whereEmpty ← upcoming ":"
      if whereEmpty then skip
      match (← peek).bind instead? with
      | some how =>
        skip
        return .parameter p.isQuoted name (.instead how whereEmpty (← parts fuel inside []))
      | none =>
        skipAll 1
        let _ ← parts fuel inside []
        return .parameter p.isQuoted name .bad

/-- The text that a redirection refers to. -/
def documentBody (fuel : Nat) (d : Pending) : Parser Word :=
  match fuel with
  | 0 => wrong tooDeep
  | fuel + 1 => do
    if d.isQuoted then return ← verbatimDocument d.mark
    modify ({ · with mark? := some d.mark })
    let w ← if ← takeMark then pure [] else parts fuel .document []
    modify ({ · with mark? := none })
    return w

/-- The texts that redirections refer to, at the end of a line. -/
def documentBodies (fuel : Nat) : Parser Unit :=
  match fuel with
  | 0 => wrong tooDeep
  | fuel + 1 => do
    match (← get).pending with
    | [] => return
    | d :: ds =>
      modify ({ · with pending := ds })
      let body ← documentBody fuel d
      modify fun s => { s with documents := (d.number, body) :: s.documents }
      documentBodies fuel

/-- A token. Where `keywords` says so a word may be a keyword, and where `newlines` says so line ends are
passed over. -/
def token (fuel : Nat) (keywords newlines : Bool) : Parser Token :=
  match fuel with
  | 0 => wrong tooDeep
  | fuel + 1 => do
    let t ← rawToken fuel
    match t with
    | .newline =>
      if !newlines then return t
      documentBodies fuel
      token fuel keywords newlines
    | t => return if keywords then t.asKeyword else t

def rawToken (fuel : Nat) : Parser Token :=
  match fuel with
  | 0 => wrong tooDeep
  | fuel + 1 => do
    match (← get).pushed with
    | some t =>
      modify ({ · with pushed := none })
      return t
    | none =>
      skipBlanks
      match ← peek with
      | none => return .ending
      | some (.char '\n') =>
        skip
        return .newline
      | some _ =>
        match ← mark? with
        | some t => return t
        | none =>
          let w ← parts fuel .bare []
          match stream? w with
          | none => return .word w
          | some stream => match ← operator? with
            | some operator => return .redirection stream operator
            | none => return .word w

/-- What stands behind the operator of a redirection. -/
def redirection (fuel : Nat) (stream : Option Nat) (operator : Text) : Parser Redirection :=
  match fuel with
  | 0 => wrong tooDeep
  | fuel + 1 => do
    if operator.startsWith "<<" then
      skipBlanks
      let s ← get
      let (mark, isQuoted, rest) := documentMark false none [] s.rest
      if rest.length = s.rest.length then fail (← rawToken fuel) none
      let number := s.nextDocument
      let pending := s.pending ++ [⟨number, ⟨mark, operator = "<<-"⟩, isQuoted⟩]
      set { s with rest, pending, nextDocument := number + 1 }
      return .document (stream.getD 0) number
    let t ← token fuel false false
    match t with
    | .word w =>
      return if operator = ">&" then .copy (stream.getD 1) w
        else if operator = "<&" then .copy (stream.getD 0) w
        else if operator = "<" then .file (stream.getD 0) .read w
        else if operator = "<>" then .file (stream.getD 0) .both w
        else if operator = ">|" then .file (stream.getD 1) .overwrite w
        else if operator = ">>" then .file (stream.getD 1) .append w
        else .file (stream.getD 1) .write w
    | t => fail t none

/-- The redirections behind a command. -/
def redirections (fuel : Nat) (done : List Redirection) : Parser (List Redirection) :=
  match fuel with
  | 0 => wrong tooDeep
  | fuel + 1 => do
    match ← token fuel true false with
    | .redirection stream operator =>
      redirections fuel (done ++ [← redirection fuel stream operator])
    | t =>
      push t
      return done

/-- The rest of a command without keywords. -/
def simple (fuel line : Nat) (d : Draft) : Parser Command :=
  match fuel with
  | 0 => wrong tooDeep
  | fuel + 1 => do
    match ← token fuel false false with
    | .word w =>
      let d := d.add w
      if d.words.isEmpty then
        match ← token fuel false false with
        | .word w =>
          match ← replacement? w with
          | some text => modify fun s => { s with rest := text ++ s.rest }
          | none => push (.word w)
        | t => push t
      simple fuel line d
    | .redirection stream operator =>
      let r ← redirection fuel stream operator
      simple fuel line { d with redirections := d.redirections ++ [r] }
    | .openParen =>
      match d.function? with
      | none =>
        push .openParen
        return d.command line
      | some w =>
        match ← token fuel false false with
        | .closeParen =>
          let name := (Word.literal? w).getD []
          if !isName name || name.isOneOf specials then wrong "Bad function name"
          let line := (← get).line
          return .function line name (← command fuel true true)
        | t => fail t (some .closeParen)
    | t =>
      push t
      return d.command line

/-- A command that keywords hold together, from behind its first keyword up to the last. -/
def closed (fuel : Nat) (c : Command) (closer : Token) (isCloser : Token → Bool) : Parser Command :=
  match fuel with
  | 0 => wrong tooDeep
  | fuel + 1 => do
    let t ← token fuel true false
    if !isCloser t then fail t (some closer)
    let line := (← get).line
    match ← redirections fuel [] with
    | [] => return c
    | rs => match c with
      | .subshell line c _ => return .subshell line c rs
      | c => return .redirected line c rs

/-- Reads a keyword that has to come next. -/
def need (fuel : Nat) (k : Text) : Parser Unit :=
  match fuel with
  | 0 => wrong tooDeep
  | fuel + 1 => do
    let t ← token fuel true false
    if !t.isKeyword k then fail t (some (.keyword k))

/-- The branches of a choice, from behind the first keyword on. -/
def choice (fuel : Nat) : Parser Command :=
  match fuel with
  | 0 => wrong tooDeep
  | fuel + 1 => do
    let test ← list fuel none false
    need fuel "then"
    let yes ← list fuel none false
    let t ← token fuel true false
    if t.isKeyword "elif" then return .choice test yes (some (← choice fuel))
    if t.isKeyword "else" then return .choice test yes (some (← list fuel none false))
    push t
    return .choice test yes none

/-- The words that a loop goes through, up to the end of the line or a semicolon. -/
def items (fuel : Nat) (done : List Word) : Parser (List Word) :=
  match fuel with
  | 0 => wrong tooDeep
  | fuel + 1 => do
    match ← token fuel false false with
    | .word w => items fuel (done ++ [w])
    | .newline | .semicolon => return done
    | t => fail t none

/-- A loop over words, from behind the first keyword on. -/
def forEach (fuel : Nat) : Parser Command :=
  match fuel with
  | 0 => wrong tooDeep
  | fuel + 1 => do
    let line := (← get).line
    match ← token fuel false false with
    | .word w =>
      let name := (Word.literal? w).getD []
      if !isName name then wrong "Bad for loop variable"
      let t ← token fuel true true
      let words ← if t.isKeyword "in" then some <$> items fuel [] else pure none
      if words.isNone then
        match t with
        | .semicolon => pure ()
        | t => push t
      let t ← token fuel true true
      if !t.isKeyword "do" then fail t (some (.keyword "do"))
      return .forEach line name words (← list fuel none false)
    | _ => wrong "Bad for loop variable"

/-- The patterns of a branch, up to the bracket behind them. -/
def patterns (fuel : Nat) (t : Token) (done : List Word) : Parser (List Word) :=
  match fuel with
  | 0 => wrong tooDeep
  | fuel + 1 => do
    let w : Word := match t with
      | .word w => w
      | .keyword k => [.text false k]
      | _ => []
    match ← token fuel false false with
    | .pipe => patterns fuel (← token fuel false false) (done ++ [w])
    | .closeParen => return done ++ [w]
    | t => fail t (some .closeParen)

/-- The branches for a word, up to the last keyword. -/
def branches (fuel : Nat) (done : List (List Word × Command)) : Parser (List (List Word × Command)) :=
  match fuel with
  | 0 => wrong tooDeep
  | fuel + 1 => do
    let t ← token fuel true true
    if t.isKeyword "esac" then return done
    let t ← match t with
      | .openParen => token fuel false false
      | t => pure t
    let ps ← patterns fuel t []
    let body ← list fuel none true
    let t ← token fuel true true
    if t.isKeyword "esac" then return done ++ [(ps, body)]
    match t with
    | .endCase => branches fuel (done ++ [(ps, body)])
    | t => fail t (some .endCase)

/-- The branches for a word, from behind the first keyword on. -/
def cases (fuel : Nat) : Parser Command :=
  match fuel with
  | 0 => wrong tooDeep
  | fuel + 1 => do
    let line := (← get).line
    match ← token fuel false false with
    | .word w =>
      let t ← token fuel true true
      if !t.isKeyword "in" then fail t (some (.keyword "in"))
      return .cases line w (← branches fuel [])
    | t => fail t (some (.word []))

def command (fuel : Nat) (keywords newlines : Bool) : Parser Command :=
  match fuel with
  | 0 => wrong tooDeep
  | fuel + 1 => do
    let t ← token fuel keywords newlines
    let line := (← get).line
    match t with
    | .openParen =>
      let c ← list fuel none false
      closed fuel (.subshell line c []) .closeParen Token.isCloseParen
    | .word w =>
      match ← replacement? w with
      | some text =>
        modify fun s => { s with rest := text ++ s.rest }
        command fuel keywords newlines
      | none =>
        push t
        modify ({ · with replaced := [] })
        simple fuel line {}
    | .redirection .. =>
      push t
      simple fuel line {}
    | .keyword k =>
      let close (c : Command) (k : Text) := closed fuel c (.keyword k) (Token.isKeyword k)
      if k = "if" then close (← choice fuel) "fi"
      else if k = "while" || k = "until" then
        let test ← list fuel none false
        need fuel "do"
        close (.loop (k = "until") test (← list fuel none false)) "done"
      else if k = "for" then close (← forEach fuel) "done"
      else if k = "case" then
        let c ← cases fuel
        push (.keyword "esac")
        close c "esac"
      else if k = "\x7b" then close (← list fuel none false) "\x7d"
      else fail t none
    | t => fail t none

/-- The rest of a pipeline. -/
def stages (fuel : Nat) (done : List Command) : Parser (List Command) :=
  match fuel with
  | 0 => wrong tooDeep
  | fuel + 1 => do
    match ← token fuel false false with
    | .pipe => stages fuel (done ++ [← command fuel true true])
    | t =>
      push t
      return done

def pipeline (fuel : Nat) (keywords newlines : Bool) : Parser Command :=
  match fuel with
  | 0 => wrong tooDeep
  | fuel + 1 => do
    let t ← token fuel keywords newlines
    let isNegated := t.isKeyword "!"
    if !isNegated then push t
    let c ← command fuel true false
    let c ← match ← stages fuel [c] with
      | [c] => pure c
      | cs => pure (.pipeline cs)
    return if isNegated then .negated c else c

/-- Pipelines of which each runs only if the one before it came out in some way. -/
def chain (fuel : Nat) (first : Command) : Parser Command :=
  match fuel with
  | 0 => wrong tooDeep
  | fuel + 1 => do
    match ← token fuel false false with
    | .and => chain fuel (.both first (← pipeline fuel true true))
    | .or => chain fuel (.either first (← pipeline fuel true true))
    | t =>
      push t
      return first

/-- Commands up to a mark that no command starts with. There may be none at all only where `mayEnd` says
so. -/
def list (fuel : Nat) (first : Option Command) (mayEnd : Bool) : Parser Command :=
  match fuel with
  | 0 => wrong tooDeep
  | fuel + 1 => do
    let t ← token fuel true true
    push t
    match t with
    | .ending =>
      documentBodies fuel
      return first.getD .nothing
    | t =>
      if mayEnd && t.closesList then return first.getD .nothing
      let c ← chain fuel (← pipeline fuel false false)
      match ← token fuel false false with
      | .ampersand => list fuel (some (join first (.background c))) true
      | .semicolon => list fuel (some (join first c)) true
      | .newline =>
        documentBodies fuel
        list fuel (some (join first c)) true
      | t =>
        push t
        return join first c

/-- The commands of a line, and whether the text ends with it; `none` at the end of the text. -/
def line? (fuel : Nat) (first : Option Command) : Parser (Option (Command × Bool)) :=
  match fuel with
  | 0 => wrong tooDeep
  | fuel + 1 => do
    let t ← token fuel true false
    match t with
    | .newline =>
      documentBodies fuel
      return some (first.getD .nothing, false)
    | .ending =>
      documentBodies fuel
      return first.map fun c => (c, true)
    | t =>
      push t
      let c ← chain fuel (← pipeline fuel false false)
      match ← token fuel false false with
      | .ampersand => line? fuel (some (join first (.background c)))
      | .semicolon => line? fuel (some (join first c))
      | .newline =>
        documentBodies fuel
        return some (join first c, false)
      | .ending =>
        documentBodies fuel
        return some (join first c, true)
      | t => fail t none

end

/-- Reads a text like one that stands in a script. -/
def document (t : Text) : Option Word :=
  match EStateM.run (parts (4 * t.length + 16) .document []) { rest := t } with
  | .ok w _ => some w
  | .error .. => none

/-- Reads the commands of the next line, and tells whether the text ends with it. -/
def next? : Parser (Option (Command × Bool)) := do
  modify ({ · with pushed := none })
  line? (4 * (← get).rest.length + 16) none

end Parser

end CallTrace.Shell
