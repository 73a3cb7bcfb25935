import CallTrace.Json.Token

namespace CallTrace.Json

/-- A container part way through, its entries last one first. -/
inductive OpenContainer where
  | list (items : List Json)
  | object (fields : Fields) (key : Text)

/-- What may come next. -/
inductive Expected where
  | value
  | valueOrClose
  | key
  | keyOrClose
  | colon
  | commaOrClose
  | nothing (j : Json)

/-- Puts a finished value into the innermost open container. -/
def place (j : Json) : List OpenContainer → List OpenContainer × Expected
  | [] => ([], .nothing j)
  | .list items :: outer => (.list (j :: items) :: outer, .commaOrClose)
  | .object fields key :: outer => (.object ((key, j) :: fields) key :: outer, .commaOrClose)

def begin? (outer : List OpenContainer) : Token → Option (List OpenContainer × Expected)
  | .value j => some (place j outer)
  | .openList => some (.list [] :: outer, .valueOrClose)
  | .openObject => some (.object [] [] :: outer, .keyOrClose)
  | _ => none

def name? (outer : List OpenContainer) : Token → Option (List OpenContainer × Expected)
  | .value (.text key) => match outer with
    | .object fields _ :: outer => some (.object fields key :: outer, .colon)
    | _ => none
  | _ => none

/-- A comma or a closing bracket, in the innermost container. -/
def continue? (outer : List OpenContainer) (t : Token) : Option (List OpenContainer × Expected) :=
  match outer, t with
  | .list items :: outer, .comma => some (.list items :: outer, .value)
  | .list items :: outer, .closeList => some (place (.list items.reverse) outer)
  | .object fields key :: outer, .comma => some (.object fields key :: outer, .key)
  | .object fields _ :: outer, .closeObject =>
    some (place (.object (Fields.ofPairs fields.reverse)) outer)
  | _, _ => none

def isClose : Token → Bool
  | .closeList => true
  | .closeObject => true
  | _ => false

def step? (outer : List OpenContainer) : Expected → Token → Option (List OpenContainer × Expected)
  | .value, t => begin? outer t
  | .valueOrClose, t => if isClose t then continue? outer t else begin? outer t
  | .key, t => name? outer t
  | .keyOrClose, t => if isClose t then continue? outer t else name? outer t
  | .colon, .colon => some (outer, .value)
  | .commaOrClose, t => continue? outer t
  | _, _ => none

/-- Lists and objects may nest so deep. -/
def maxNesting : Nat := 12270

def ofTokens : List OpenContainer → Expected → List Token → Except ReadFault Json
  | _, .nothing j, [] => .ok j
  | _, _, [] => .error .malformed
  | outer, e, t :: ts =>
    match step? outer e t with
    | some (outer, e) => if maxNesting < outer.length then .error .tooDeep else ofTokens outer e ts
    | none => .error .malformed

def read (t : Text) : Except ReadFault Json := do ofTokens [] .value (← tokens t)

/-- JSON from octets, whatever their encoding. -/
def readOctets (bs : Octets) : Except ReadFault Json :=
  match Text.decodeAny? bs with
  | some t => read t
  | none => .error .malformed

end CallTrace.Json
