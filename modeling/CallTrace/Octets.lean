import CallTrace.Fault
import CallTrace.Limits

namespace CallTrace.Octets

/-- An octet so many times. A count below zero counts as zero. -/
def repeated [Limits] (n : Int) (b : UInt8) : Except Fault Octets :=
  if !isCount n then .error .countTooLarge
  else if !Limits.admitsOctets n.toNat then .error .outOfMemory
  else .ok (List.replicate n.toNat b)

theorem repeated_natural (n : Nat) (h : n ≤ greatestCount) (b : UInt8) :
    @repeated .unbounded n b = .ok (List.replicate n b) := by
  have : isCount n = true := by
    simp only [isCount, Bool.and_eq_true, decide_eq_true_eq]
    constructor
    · simp only [greatestCount]; omega
    · exact h
  simp [repeated, this, Limits.admitsOctets_unbounded]

end CallTrace.Octets
