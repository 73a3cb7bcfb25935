import CallTrace.Number.Binary64

namespace CallTrace

inductive Number where
  | whole (n : Int)
  | real (x : Binary64)
deriving DecidableEq, Inhabited

/-- Where a number lies: at a fraction, or before or behind all of them. -/
inductive Extent where
  | least
  | fraction (num : Int) (den : Nat)
  | greatest

/-- Whether one extent lies before another. -/
def Extent.isBelow : Extent → Extent → Bool
  | .fraction a b, .fraction c d => a * d < c * b
  | .least, .least => false
  | .least, _ => true
  | .fraction .., .greatest => true
  | _, _ => false

/-- The extent of a number; what is not a number has none. -/
def Binary64.extent? : Binary64 → Option Extent
  | .nan => none
  | .infinite negative => some (if negative then .least else .greatest)
  | .finite negative m e =>
    let size := if e < 0 then m else m * twoPow e.toNat
    let den := if e < 0 then twoPow (-e).toNat else 1
    some (.fraction (if negative then -Int.ofNat size else Int.ofNat size) den)

namespace Number

def extent? : Number → Option Extent
  | .whole n => some (.fraction n 1)
  | .real x => x.extent?

def zero : Number := .whole 0

/-- An integer of more decimal digits than this is neither read nor written. -/
def maxDigits : Nat := 4300

def isLengthy (n : Int) : Bool := tenPow maxDigits ≤ n.natAbs

/-- Whether one number is ordered before another. -/
def isBelow (x y : Number) : Bool :=
  match x.extent?, y.extent? with
  | some a, some b => a.isBelow b
  | _, _ => false

def isAtMost (x y : Number) : Bool :=
  match x.extent?, y.extent? with
  | some a, some b => !b.isBelow a
  | _, _ => false

/-- Whether a number lies between two others, both included. -/
def isWithin (x low high : Number) : Bool := low.isAtMost x && x.isAtMost high

/-- The least integer at or above a number, if there is one. -/
def ceiling? : Number → Option Int
  | .whole n => some n
  | .real x => x.truncate?.map fun n => if (whole n).isBelow (.real x) then n + 1 else n

/-- Equality as values: what is not a number equals itself. -/
def same : Number → Number → Bool
  | .whole m, .whole n => m = n
  | .whole m, .real y => y.isInt m
  | .real x, .whole n => x.isInt n
  | .real x, .real y => x.same y

theorem isBelow_whole (m n : Int) : isBelow (.whole m) (.whole n) = decide (m < n) := by
  simp [isBelow, extent?, Extent.isBelow]

theorem isAtMost_whole (m n : Int) : isAtMost (.whole m) (.whole n) = decide (m ≤ n) := by
  rw [show decide (m ≤ n) = !decide (n < m) by rw [← decide_not, decide_eq_decide]; omega]
  simp [isAtMost, extent?, Extent.isBelow]

end Number

end CallTrace
