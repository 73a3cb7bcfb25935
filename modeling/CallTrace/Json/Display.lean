import CallTrace.Json.Basic
import CallTrace.Number.Shortest
import CallTrace.Text.Quoted

namespace CallTrace.Json

/-- The word for the sort of a value. -/
def sort : Json → Text
  | .null => "NoneType"
  | .bool _ => "bool"
  | .int _ => "int"
  | .real _ => "float"
  | .text _ => "str"
  | .list _ => "list"
  | .object _ => "dict"

def displayScalar : Json → Text
  | .bool true => "True"
  | .bool false => "False"
  | .int n => Text.ofInt n
  | .real x => Layout.message.render x
  | .text s => Text.quoted s
  | _ => "None"

/-- Fields between braces. -/
def braced (fields : List Text) : Text := "\x7b" ++ Text.join ", " fields ++ "\x7d"

mutual

def display : Json → Text
  | .list items => Text.bracketed (displayItems items)
  | .object fields => braced (displayFields fields)
  | j => displayScalar j

def displayItems : List Json → List Text
  | [] => []
  | j :: js => display j :: displayItems js

def displayFields : List (Text × Json) → List Text
  | [] => []
  | (k, v) :: fs => (Text.quoted k ++ ": " ++ display v) :: displayFields fs

end

/-- Like `display`, with a text that stands alone left unquoted. -/
def plain : Json → Text
  | .text s => s
  | j => j.display

end CallTrace.Json
