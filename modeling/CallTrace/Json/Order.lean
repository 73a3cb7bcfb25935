import CallTrace.Json.Access

namespace CallTrace.Json

mutual

/-- Whether a value is ordered before another one. -/
def isBelow : Json → Json → Except Fault Bool
  | .list xs, .list ys => itemsBelow xs ys
  | .text s, .text t => .ok (!Text.atMost t s)
  | a, b =>
    match a.number?, b.number? with
    | some x, some y => .ok (x.isBelow y)
    | _, _ => .error .unsuited

/-- Lists are ordered by the first items that differ, and a list before all that it begins. -/
def itemsBelow : List Json → List Json → Except Fault Bool
  | x :: xs, y :: ys => if x.same y then itemsBelow xs ys else isBelow x y
  | [], ys => .ok !ys.isEmpty
  | _ :: _, [] => .ok false

end

/-- Takes values in front of which each is below the one before it, or none is, as `falls` says. -/
def takeRun (falls : Bool) (last : Json) : List Json → Except Fault (List Json × List Json)
  | [] => .ok ([], [])
  | j :: js => do
    if (← j.isBelow last) = falls then
      let (run, rest) ← takeRun falls j js
      return (j :: run, rest)
    else return ([], j :: js)

/-- The place of a value in a run, between two places; the first argument bounds how often they close in. -/
def placeIn (run : List Json) (j : Json) : Nat → Nat → Nat → Except Fault Nat
  | 0, low, _ => .ok low
  | times + 1, low, high =>
    if low < high then do
      let middle := (low + high) / 2
      if ← j.isBelow (run.getD middle .null) then placeIn run j times low middle
      else placeIn run j times (middle + 1) high
    else .ok low

def insertIn (run : List Json) (j : Json) : Except Fault (List Json) := do
  return run.insertIdx (← placeIn run j run.length 0 run.length) j

/-- Values in order. -/
def sorted : List Json → Except Fault (List Json)
  | a :: b :: js => do
    let falls ← b.isBelow a
    let (run, rest) ← takeRun falls b js
    rest.foldlM insertIn (if falls then (a :: b :: run).reverse else a :: b :: run)
  | js => .ok js

end CallTrace.Json
