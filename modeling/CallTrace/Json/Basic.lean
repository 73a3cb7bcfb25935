import CallTrace.Number.Basic
import CallTrace.Text.Basic

namespace CallTrace

inductive Json where
  | null
  | bool (b : Bool)
  | int (n : Int)
  | real (x : Binary64)
  | text (s : Text)
  | list (items : List Json)
  | object (fields : List (Text × Json))
deriving Inhabited

abbrev Fields := List (Text × Json)

namespace Fields

/-- The value of a field. -/
def value? (fields : Fields) (key : Text) : Option Json := fields.lookup key

/-- Sets a field: in its old place if the key is there, at the end otherwise. -/
def put (key : Text) (value : Json) : Fields → Fields
  | [] => [(key, value)]
  | (k, v) :: fields => if k = key then (key, value) :: fields else (k, v) :: put key value fields

/-- A repeated key keeps its first place and takes its last value. -/
def ofPairs (pairs : Fields) : Fields := pairs.foldl (fun fields (k, v) => fields.put k v) []

def has (fields : Fields) (key : Text) : Bool := (fields.value? key).isSome

/-- Adds a field only if the key is not there yet. -/
def putNew (key : Text) (value : Json) (fields : Fields) : Fields :=
  if fields.has key then fields else fields ++ [(key, value)]

def keys (fields : Fields) : List Text := fields.map Prod.fst

/-- Groups of fields, one after the other. -/
def concat (groups : List Fields) : Fields := groups.flatten

theorem value?_put_self (fields : Fields) (key : Text) (value : Json) :
    (fields.put key value).value? key = some value := by
  induction fields with
  | nil => simp [put, value?]
  | cons f fields ih =>
    obtain ⟨k, v⟩ := f
    simp only [value?] at ih ⊢
    by_cases h : k = key
    · simp [put, h]
    · simp [put, h, List.lookup_cons, beq_false_of_ne (Ne.symm h), ih]

theorem value?_put_ne {key other : Text} (h : other ≠ key) (fields : Fields) (value : Json) :
    (fields.put key value).value? other = fields.value? other := by
  induction fields with
  | nil => simp [put, value?, List.lookup_cons, beq_false_of_ne h]
  | cons f fields ih =>
    obtain ⟨k, v⟩ := f
    simp only [value?] at ih ⊢
    by_cases hk : k = key
    · subst hk; simp [put, List.lookup_cons, beq_false_of_ne h]
    · simp [put, hk, List.lookup_cons, ih]

end Fields

namespace Json

def ofNat (n : Nat) : Json := .int (Int.ofNat n)

def texts (ss : List Text) : Json := .list (ss.map .text)

/-- Whether a value says something: nothing is said by null, false, zero and what is empty. -/
def isGiven : Json → Bool
  | .null => false
  | .bool b => b
  | .int n => n ≠ 0
  | .real x => !x.isZero
  | .text s => !s.isEmpty
  | .list items => !items.isEmpty
  | .object fields => !fields.isEmpty

def given? (j : Json) : Option Json := if j.isGiven then some j else none

/-- A value other than null. -/
def present? : Json → Option Json
  | .null => none
  | j => some j

/-- The number that a value is; a truth value counts as zero or one. -/
def number? : Json → Option Number
  | .bool b => some (.whole (if b then 1 else 0))
  | .int n => some (.whole n)
  | .real x => some (.real x)
  | _ => none

/-- Values other than lists and objects that are equal as values. -/
def sameScalar (a b : Json) : Bool :=
  match a.number?, b.number? with
  | some x, some y => x.same y
  | _, _ => match a, b with
    | .null, .null => true
    | .text s, .text t => s = t
    | _, _ => false

mutual

/-- Equality as values: numbers by what they count, objects whatever the order of their fields. -/
def same : Json → Json → Bool
  | .list xs, .list ys => sameItems xs ys
  | .object fs, .object gs => fs.length = gs.length && sameFields fs gs
  | a, b => sameScalar a b

def sameItems : List Json → List Json → Bool
  | [], [] => true
  | x :: xs, y :: ys => same x y && sameItems xs ys
  | _, _ => false

def sameFields : List (Text × Json) → Fields → Bool
  | [], _ => true
  | (k, v) :: fs, gs =>
    (match gs.lookup k with
      | some w => same v w
      | none => false) && sameFields fs gs

end

mutual

/-- Whether some integer in a value has too many digits to be written. -/
def isLengthy : Json → Bool
  | .int n => Number.isLengthy n
  | .list items => anyLengthy items
  | .object fields => anyFieldLengthy fields
  | _ => false

def anyLengthy : List Json → Bool
  | [] => false
  | j :: js => isLengthy j || anyLengthy js

def anyFieldLengthy : List (Text × Json) → Bool
  | [] => false
  | f :: fs => isLengthy f.2 || anyFieldLengthy fs

end

end Json

end CallTrace
