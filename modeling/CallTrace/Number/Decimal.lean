import CallTrace.Fault

namespace CallTrace.Number

/-- An integer in decimal digits, if these are not too many. -/
def decimal (n : Int) : Except Fault Text :=
  if isLengthy n then .error .unwritableNumber else .ok (Text.ofInt n)

theorem decimal_of_not_isLengthy {n : Int} (h : isLengthy n = false) : decimal n = .ok (Text.ofInt n) := by
  simp [decimal, h]

end CallTrace.Number
