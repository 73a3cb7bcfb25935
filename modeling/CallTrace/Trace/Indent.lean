import CallTrace.Json.Access
import CallTrace.Limits
import CallTrace.Number.Hexadecimal

namespace CallTrace.Trace

/-- From this depth on the indentation no longer grows and the depth is written out. -/
def greatestIndent : Nat := 10

/-- What stands in front of a line at a depth. -/
def indent (depth : Int) : Except Fault Text :=
  if !isCount (min greatestIndent depth) then .error .countTooLarge
  else
    let dots := Text.concat (List.replicate (min greatestIndent depth.toNat) ". ")
    .ok (if greatestIndent ≤ depth then dots ++ "(" ++ Number.hexMarked depth ++ ") " else dots)

/-- What stands in front of a line at a depth of any sort. One with a fraction never serves. -/
def indentOf (j : Json) : Except Fault Text := do
  match ← j.toNumber with
  | .whole n => indent n
  | .real x => throw (if (Number.whole greatestIndent).isAtMost (.real x) then .unreadableNumber else .unsuited)

theorem isCount_min (depth : Nat) : isCount (min (greatestIndent : Int) depth) = true := by
  have h : min (greatestIndent : Int) depth ≤ 10 := Int.min_le_left ..
  have h₀ : 0 ≤ min (greatestIndent : Int) depth := by simp only [greatestIndent]; omega
  simp only [isCount, Bool.and_eq_true, decide_eq_true_eq]
  generalize min (greatestIndent : Int) depth = n at h h₀
  simp only [greatestCount]
  omega

end CallTrace.Trace
