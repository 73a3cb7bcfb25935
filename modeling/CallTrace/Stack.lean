import CallTrace.Json.Access

namespace CallTrace

/-- How many items are kept, by how many there are. -/
abbrev Keep := Nat → Except Fault Nat

namespace Keep

/-- So many items, or all if there are fewer. -/
def top (size : Int) : Keep := fun count =>
  if size < 0 then .error (.negativeSize (.int size)) else .ok (min size.toNat count)

/-- A size that is no whole number serves only if it keeps all items or none. -/
def ofReal (size : Binary64) : Keep := fun count =>
  if (Number.real size).isBelow .zero then .error (.negativeSize (.real size))
  else if (Number.whole count).isAtMost (.real size) then .ok count
  else if size.isZero then .ok 0
  else .error .unsuited

/-- The size that a value stands for. -/
def ofJson (j : Json) : Keep := fun count =>
  match j.number? with
  | some (.whole n) => top n count
  | some (.real x) => ofReal x count
  | none => .error .unsuited

end Keep

/-- The last items of a stack, its top, so many at most. -/
def keepTop (keep : Keep) (stack : List α) : Except Fault (List α) := do
  return stack.drop (stack.length - (← keep stack.length))

theorem keepTop_natural (size : Nat) (stack : List α) :
    keepTop (.top size) stack = .ok (stack.drop (stack.length - size)) := by
  have h : ¬ (size : Int) < 0 := by omega
  show Except.ok (stack.drop (stack.length - min (size : Int).toNat stack.length)) = _
  rw [Int.toNat_natCast]
  congr 2
  omega

end CallTrace
