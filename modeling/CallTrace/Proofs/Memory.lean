import CallTrace.Proofs.Attempt
import CallTrace.Memory

namespace CallTrace.Memory
open Attempt

/-- So many octets from an offset on; beyond the end of the memory there are zeros. -/
def window (memory : Octets) (offset length : Nat) : Octets :=
  (List.range length).map fun i => memory[offset + i]?.getD 0

def IsWord (n : Int) : Prop := 0 ≤ n ∧ n ≤ greatest

instance (n : Int) : Decidable (IsWord n) := inferInstanceAs (Decidable (0 ≤ n ∧ n ≤ greatest))

/-- The octets that an offset and a length name, none if one of the two is no word. -/
def range (memory : Octets) (offset length : Int) : Octets :=
  if IsWord offset ∧ IsWord length then window memory offset.toNat length.toNat else []

def beyond (memory : Octets) (offset length : Nat) : Nat := length - (memory.length - offset)

theorem bounded?_of_isWord {n : Int} (h : IsWord n) : bounded? greatest n = some n := if_pos h

theorem bounded?_of_not_isWord {n : Int} (h : ¬ IsWord n) : bounded? greatest n = none := if_neg h

/-- What is there of the octets of a read, and zeros for the rest. -/
theorem window_eq (memory : Octets) (offset length : Nat) :
    window memory offset length =
      (memory.drop offset).take length ++ List.replicate (beyond memory offset length) 0 := by
  apply List.ext_getElem?
  intro i
  have hlen : ((memory.drop offset).take length).length = min length (memory.length - offset) := by simp
  have hbeyond : beyond memory offset length = length - (memory.length - offset) := rfl
  rw [List.getElem?_append, hlen, List.getElem?_replicate, List.getElem?_take, List.getElem?_drop, window,
    List.getElem?_map]
  -- An octet of the read lies within the memory or beyond its end.
  by_cases hi : i < length
  · rw [List.getElem?_range hi, Option.map_some]
    by_cases hm : offset + i < memory.length
    · rw [if_pos (by omega), if_pos hi, List.getElem?_eq_getElem hm, Option.getD_some]
    · rw [if_neg (by omega), if_pos (by omega), List.getElem?_eq_none (by omega), Option.getD_none]
  · rw [if_neg (by omega), if_neg (by omega), List.getElem?_eq_none (by simpa using hi), Option.map_none]

theorem read_eq_map_repeated [Limits] (memory : Octets) (offset length : Nat) :
    read memory offset length = (Octets.repeated (beyond memory offset length : Nat) 0).map
      ((memory.drop offset).take length ++ ·) := by
  have hlen : (length : Int) - ((memory.drop offset).take length).length =
      (beyond memory offset length : Nat) := by
    simp only [List.length_take, List.length_drop, beyond]
    omega
  unfold read
  simp only [slice_natural, hlen]
  cases Octets.repeated (beyond memory offset length : Nat) 0 <;> rfl

theorem read_eq_ok [Limits] {memory bs : Octets} {offset length : Nat}
    (h : read memory offset length = .ok bs) : bs = window memory offset length := by
  rw [read_eq_map_repeated, map_eq_ok] at h
  obtain ⟨zeros, hz, rfl⟩ := h
  unfold Octets.repeated at hz
  split at hz
  · cases hz
  · split at hz
    · cases hz
    · cases hz
      rw [window_eq, Int.toNat_natCast]

theorem isCount_natural {n : Nat} : isCount n = true ↔ n ≤ greatestCount := by
  simp only [isCount, Bool.and_eq_true, decide_eq_true_eq]
  simp only [greatestCount]
  omega

/-- With room for everything a read succeeds if the zeros it needs can be counted. -/
theorem read_unbounded {memory : Octets} {offset length : Nat}
    (h : beyond memory offset length ≤ greatestCount) :
    @read .unbounded memory offset length = .ok (window memory offset length) := by
  rw [@read_eq_map_repeated .unbounded, Octets.repeated_natural _ h, map_ok, window_eq]

theorem read_of_greatestCount_lt [Limits] {memory : Octets} {offset length : Nat}
    (h : greatestCount < beyond memory offset length) :
    read memory offset length = .error .countTooLarge := by
  have hc : isCount (beyond memory offset length : Nat) = false := by
    rw [← Bool.not_eq_true, isCount_natural]
    omega
  simp only [read_eq_map_repeated, Octets.repeated, hc, Bool.not_false, if_true, map_error]

end CallTrace.Memory
