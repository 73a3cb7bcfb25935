import CallTrace.Octets

namespace CallTrace.Memory

/-- The greatest offset or length that a read may name: the greatest word of 64 bits. -/
def greatest : Int := 0xFFFFFFFFFFFFFFFF

/-- A number within `0` and `maximum`, ends included. -/
def bounded? (maximum value : Int) : Option Int :=
  if 0 ≤ value ∧ value ≤ maximum then some value else none

/-- Where a position lies in a memory of this size; a negative one counts from the end. -/
def position (size : Nat) (i : Int) : Nat :=
  if i < 0 then (size + i).toNat else min i.toNat size

def slice (memory : Octets) (offset length : Int) : Octets :=
  let start := position memory.length offset
  let stop := position memory.length (offset + length)
  (memory.drop start).take (stop - start)

/-- Reads so many octets; those beyond the end of the memory are zeros. -/
def read [Limits] (memory : Octets) (offset length : Int) : Except Fault Octets := do
  let part := slice memory offset length
  return part ++ (← Octets.repeated (length - part.length) 0)

theorem slice_natural (memory : Octets) (offset length : Nat) :
    slice memory offset length = (memory.drop offset).take length := by
  have hs : ¬ (Int.ofNat offset + Int.ofNat length) < 0 := by simp; omega
  have ht : ¬ Int.ofNat offset < 0 := by simp
  simp only [slice, position, Int.ofNat_eq_natCast] at *
  rw [if_neg ht, if_neg hs]
  apply List.ext_getElem?
  intro i
  simp only [List.getElem?_take, List.getElem?_drop]
  split <;> split <;> grind

end CallTrace.Memory
