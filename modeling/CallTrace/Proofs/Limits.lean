import CallTrace.Octets

namespace CallTrace

namespace Limits

theorem admits_of_le {bound : Option Nat} {m n : Nat} (h : m ≤ n) (hn : admits bound n = true) :
    admits bound m = true := by
  cases bound with
  | none => rfl
  | some b =>
    rw [admits, Option.all_some, decide_eq_true_eq] at hn ⊢
    exact Nat.le_trans h hn

variable [Limits]

theorem admitsOctets_of_le {m n : Nat} (h : m ≤ n) (hn : admitsOctets n = true) : admitsOctets m = true :=
  admits_of_le h hn

theorem admitsDepth_of_le {perLevel m n : Nat} (h : m ≤ n) (hn : admitsDepth perLevel n = true) :
    admitsDepth perLevel m = true := admits_of_le (Nat.mul_le_mul_left perLevel h) hn

end Limits

namespace Octets

/-- Octets that can be counted, and that there is room for. -/
def Fits [Limits] (bs : Octets) : Prop :=
  (bs.length : Int) ≤ greatestCount ∧ Limits.admitsOctets bs.length = true

variable [Limits]

instance (bs : Octets) : Decidable bs.Fits := inferInstanceAs (Decidable (_ ∧ _))

theorem Fits.of_length_le {as bs : Octets} (hbs : bs.Fits) (h : as.length ≤ bs.length) : as.Fits := by
  refine ⟨?_, Limits.admitsOctets_of_le h hbs.2⟩
  have hcount := hbs.1
  omega

/-- An octet is repeated if there can be so many octets. -/
theorem repeated_of_fits {n : Nat} {b : UInt8} (h : Fits (List.replicate n b)) :
    repeated n b = .ok (List.replicate n b) := by
  unfold Fits at h
  rw [List.length_replicate] at h
  have hcount : isCount n = true := by
    simp only [isCount, Bool.and_eq_true, decide_eq_true_eq]
    exact ⟨by simp only [greatestCount]; omega, h.1⟩
  simp only [repeated, hcount, Int.toNat_natCast, h.2, Bool.not_true, Bool.false_eq_true, if_false]

end Octets

end CallTrace
