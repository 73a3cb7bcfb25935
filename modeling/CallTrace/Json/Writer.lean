import CallTrace.Json.Basic
import CallTrace.Number.Hexadecimal
import CallTrace.Number.Shortest

namespace CallTrace.Json

def unitEscape (n : Nat) : Text := "\\u" ++ Number.hexPadded 4 n

def escapedPoint (c : CodePoint) : Text :=
  if c = '"' || c = '\\' then ['\\', c]
  else if c = '\n' then "\\n"
  else if c = '\r' then "\\r"
  else if c = '\t' then "\\t"
  else if c = '\x0C' then "\\f"
  else if c = '\x08' then "\\b"
  else
    let n := c.toNat
    if 0x20 ≤ n && n < 0x7F then [c]
    else if n < 0x10000 then unitEscape n
    else unitEscape (0xD800 + (n - 0x10000) / 0x400) ++ unitEscape (0xDC00 + (n - 0x10000) % 0x400)

def textLiteral (t : Text) : Text := .char '"' :: t.flatMap escapedPoint ++ [.char '"']

def scalarText : Json → Text
  | .bool true => "true"
  | .bool false => "false"
  | .int n => Text.ofInt n
  | .real x => Layout.document.render x
  | .text t => textLiteral t
  | _ => "null"

mutual

/-- A value on one line, in front of a text. -/
def compactOnto : Json → Text → Text
  | .list [], rest => "[]" ++ rest
  | .list (j :: js), rest => .char '[' :: compactOnto j (compactItemsOnto js (.char ']' :: rest))
  | .object [], rest => "\x7b\x7d" ++ rest
  | .object ((k, v) :: fs), rest =>
    "\x7b" ++ (textLiteral k ++ (": " ++ compactOnto v (compactFieldsOnto fs (.char '\x7d' :: rest))))
  | j, rest => scalarText j ++ rest

/-- Items after the first one of a list. -/
def compactItemsOnto : List Json → Text → Text
  | [], rest => rest
  | j :: js, rest => ", " ++ compactOnto j (compactItemsOnto js rest)

def compactFieldsOnto : List (Text × Json) → Text → Text
  | [], rest => rest
  | (k, v) :: fs, rest => ", " ++ (textLiteral k ++ (": " ++ compactOnto v (compactFieldsOnto fs rest)))

end

def compact (j : Json) : Text := j.compactOnto []

/-- A line end and the indentation of a level, in front of a text. -/
def newLineOnto (level : Nat) (rest : Text) : Text :=
  .char '\n' :: (List.replicate (2 * level) (.char ' ') ++ rest)

mutual

/-- A value on lines of its own, the first line apart, in front of a text. -/
def indentedOnto (level : Nat) : Json → Text → Text
  | .list [], rest => "[]" ++ rest
  | .list (j :: js), rest => .char '[' :: newLineOnto (level + 1)
      (indentedOnto (level + 1) j
        (indentedItemsOnto (level + 1) js (newLineOnto level (.char ']' :: rest))))
  | .object [], rest => "\x7b\x7d" ++ rest
  | .object ((k, v) :: fs), rest => .char '\x7b' :: newLineOnto (level + 1)
      (textLiteral k ++ (": " ++ indentedOnto (level + 1) v
        (indentedFieldsOnto (level + 1) fs (newLineOnto level (.char '\x7d' :: rest)))))
  | j, rest => scalarText j ++ rest

def indentedItemsOnto (level : Nat) : List Json → Text → Text
  | [], rest => rest
  | j :: js, rest =>
    .char ',' :: newLineOnto level (indentedOnto level j (indentedItemsOnto level js rest))

def indentedFieldsOnto (level : Nat) : List (Text × Json) → Text → Text
  | [], rest => rest
  | (k, v) :: fs, rest => .char ',' :: newLineOnto level
      (textLiteral k ++ (": " ++ indentedOnto level v (indentedFieldsOnto level fs rest)))

end

def indented (j : Json) : Text := j.indentedOnto 0 []

/-- A document as text: indented for a reader, or on one line. -/
def dump (pretty : Bool) (j : Json) : Text := if pretty then j.indented else j.compact

end CallTrace.Json
