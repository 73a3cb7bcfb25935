import CallTrace.Fault

namespace CallTrace

/-- The value of a flag: the flag was not given, or nothing was left of the value that it was given with, or
there is one. -/
inductive FlagValue (α : Type u) where
  | absent
  | blank
  | given (a : α)
deriving DecidableEq

namespace FlagValue

/-- A value as JSON: null where there is none, an empty list where nothing is left of it. -/
def toJson (write : α → Json) : FlagValue α → Json
  | .absent => .null
  | .blank => .list []
  | .given a => write a

/-- A value that may be missing, but not blank. -/
def filled : FlagValue α → Except Fault (Option α)
  | .absent => .ok none
  | .blank => .error .unsuited
  | .given a => .ok (some a)

end FlagValue

end CallTrace
