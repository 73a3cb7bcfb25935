import CallTrace.Path
import CallTrace.Text.Blank
import CallTrace.Text.Lines
import CallTrace.Text.Quoted

namespace CallTrace.Glob

inductive Token where
  | anyText
  | anyChar
  | char (c : CodePoint)
  /-- One character of these ranges, or one of none of them. -/
  | oneOf (negated : Bool) (ranges : List (CodePoint × CodePoint))

def Token.accepts (t : Token) (c : CodePoint) : Bool :=
  match t with
  | .anyText | .anyChar => true
  | .char d => c = d
  | .oneOf negated ranges => ranges.any (fun r => c.isWithin r.1 r.2) != negated

/-- Cuts the inside of brackets at the hyphens that stand between the two ends of a range. The first
argument counts the characters that may not be cut at. -/
def cut (guarded : Nat) (part : Text) : Text → List (Text)
  | [] => [part.reverse]
  | c :: cs =>
    if guarded = 0 && c = '-' then part.reverse :: cut 2 [] cs else cut (guarded - 1) (c :: part) cs

/-- A hyphen at the very end stands for itself. -/
def closeParts : List (Text) → List (Text)
  | [part, []] => [part ++ "-"]
  | part :: parts => part :: closeParts parts
  | [] => []

/-- Puts a part before others. A range that would run backwards is dropped with both its ends. -/
def mergePart (part : Text) : List (Text) → List (Text)
  | [] => [part]
  | next :: parts =>
    match part.getLast?, next.head? with
    | some low, some high =>
      if high.toNat < low.toNat then (part.dropLast ++ next.drop 1) :: parts else part :: next :: parts
    | _, _ => part :: next :: parts

def single (c : CodePoint) : CodePoint × CodePoint := (c, c)

/-- The ranges that parts name, a range lying between each two of them. -/
def ranges : List (Text) → List (CodePoint × CodePoint)
  | [] => []
  | [part] => part.map single
  | part :: next :: parts =>
    match part.getLast?, next with
    | some low, high :: _ => part.map single ++ (low, high) :: ranges (next :: parts)
    | none, _ => single '-' :: ranges (next :: parts)
    | some _, [] => part.map single ++ ranges (next :: parts)

/-- The token for the inside of brackets. -/
def bracketToken (inside : Text) : Token :=
  let parts := closeParts (cut (if inside.head? = some (.char '!') then 2 else 1) [] inside)
  match parts.foldr mergePart [] with
  | [[.char '!']] => .anyChar
  | (.char '!' :: part) :: parts => .oneOf true (ranges (part :: parts))
  | parts => .oneOf false (ranges parts)

/-- How many characters stand before the closing bracket. The first one, but for an exclamation mark, is
inside even if it is such a bracket itself. -/
def insideLength? (cs : Text) : Option Nat :=
  let start := if cs.head? = some (.char '!') then 1 else 0
  let start := if cs[start]? = some (.char ']') then start + 1 else start
  ((cs.drop start).findIdx? (· = .char ']')).map (start + ·)

/-- The tokens of a pattern, so many characters of it being passed over. -/
def tokens (passed : Nat) : Text → List Token
  | [] => []
  | c :: cs =>
    if 0 < passed then tokens (passed - 1) cs
    else if c = '*' then .anyText :: tokens 0 cs
    else if c = '?' then .anyChar :: tokens 0 cs
    else if c = '[' then
      match insideLength? cs with
      | some n => bracketToken (cs.take n) :: tokens (n + 1) cs
      | none => .char '[' :: tokens 0 cs
    else .char c :: tokens 0 cs

/-- For each end of a list of truth values, whether it holds some that is true. -/
def someLater : List Bool → List Bool
  | [] => []
  | b :: bs =>
    let later := someLater bs
    (b || later.headD false) :: later

/-- For each end of a text, the longest first, whether tokens accept it. -/
def acceptedEnds (t : Text) : List Token → List Bool
  | [] => t.map (fun _ => false) ++ [true]
  | .anyText :: ts => someLater (acceptedEnds t ts)
  | token :: ts => List.zipWith (fun c rest => token.accepts c && rest) t (acceptedEnds t ts).tail ++ [false]

def accepts (ts : List Token) (t : Text) : Bool := (acceptedEnds t ts).headD false

def matchesText (pattern text : Text) : Bool := accepts (tokens 0 pattern) text

end CallTrace.Glob

namespace CallTrace

/-- Patterns of which a path has to match one. -/
structure GlobSet where
  patterns : List Text

namespace GlobSet

def holds (g : GlobSet) (path : Text) : Bool :=
  g.patterns.any fun p => Glob.matchesText p (Path.tidy path)

def display (g : GlobSet) : Text := "GlobMatcher(" ++ Text.quotedList g.patterns ++ ")"

def defaultIncludes : GlobSet := ⟨["*.json"]⟩

def defaultExcludes : GlobSet := ⟨[]⟩

def isPattern (line : Text) : Bool := !line.isEmpty && line.head? ≠ some (.char '#')

/-- One pattern a line; blank lines and comments are passed over. -/
def ofText (text : Text) : GlobSet := ⟨((Text.lines text).map Text.trimmed).filter isPattern⟩

end GlobSet

end CallTrace
