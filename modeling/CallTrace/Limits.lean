import CallTrace.Number.Basic

namespace CallTrace

/-- The room that there is; nothing stands for no bound. -/
class Limits where
  /-- How many calls may be under way within one another. -/
  frames : Option Nat
  /-- How many octets a value may have. -/
  octets : Option Nat

namespace Limits

/-- As much room as anything takes. -/
abbrev unbounded : Limits := ⟨none, none⟩

/-- The room of a common machine. -/
abbrev standard : Limits := ⟨some 12270, some (twoPow 36)⟩

/-- Whether a bound, if there is one, admits a number. -/
def admits (bound : Option Nat) (n : Nat) : Bool := bound.all (n ≤ ·)

/-- Whether work may go so deep, each level of it taking so many frames. -/
def admitsDepth [limits : Limits] (perLevel depth : Nat) : Bool := admits limits.frames (perLevel * depth)

def admitsOctets [limits : Limits] (n : Nat) : Bool := admits limits.octets n

theorem admitsOctets_unbounded (n : Nat) : @admitsOctets .unbounded n = true := rfl

theorem admitsDepth_unbounded (perLevel depth : Nat) : @admitsDepth .unbounded perLevel depth = true := rfl

end Limits

/-- Counts are kept in 63 bits and a sign. -/
def greatestCount : Int := 0x7FFFFFFFFFFFFFFF

/-- Whether a number can serve as a count. -/
def isCount (n : Int) : Bool := -greatestCount - 1 ≤ n && n ≤ greatestCount

end CallTrace
