import CallTrace.Proofs.Attempt
import CallTrace.Hex.Quantity

namespace CallTrace
open Attempt

namespace Hex

/-- A number has more bits than `k` just if it is `2 ^ k` at least. -/
theorem lt_bitLength_iff {k n : Nat} : k < bitLength n ↔ twoPow k ≤ n := by
  unfold bitLength twoPow
  by_cases hn : n = 0
  · have hpos : 0 < Nat.pow 2 k := Nat.pow_pos (by decide)
    rw [if_pos hn]
    omega
  · rw [if_neg hn, Nat.lt_succ_iff]
    exact Nat.le_log2 hn

end Hex

/-- The attempt comes to something where `p` holds, and fails for a number that is too large where it does not. -/
def FitsJust (p : Prop) (x : Except Fault α) : Prop :=
  (p → ∃ a, x = .ok a) ∧ (¬ p → ∃ value width, x = .error (.valueTooLarge value width))

namespace FitsJust

variable {α β : Type} {p q : Prop} {x : Except Fault α}

theorem of_ok (a : α) : FitsJust True (.ok a : Except Fault α) := ⟨fun _ => ⟨a, rfl⟩, fun h => absurd trivial h⟩

theorem congr (h : FitsJust p x) (hpq : p ↔ q) : FitsJust q x := by rwa [← hpq]

theorem bind {g : α → Except Fault β} (hx : FitsJust p x) (hg : ∀ a, FitsJust q (g a)) :
    FitsJust (p ∧ q) (x >>= g) := by
  by_cases hp : p
  · obtain ⟨a, rfl⟩ := hx.1 hp
    exact (hg a).congr (and_iff_right hp).symm
  · obtain ⟨value, width, rfl⟩ := hx.2 hp
    exact ⟨fun h => absurd h.1 hp, fun _ => ⟨value, width, rfl⟩⟩

theorem mapM {p : α → Prop} {g : α → Except Fault β} {as : List α} (h : ∀ a ∈ as, FitsJust (p a) (g a)) :
    FitsJust (∀ a ∈ as, p a) (as.mapM g) := by
  induction as with
  | nil => exact (of_ok []).congr (by simp)
  | cons a as ih =>
    obtain ⟨ha, has⟩ := List.forall_mem_cons.1 h
    rw [List.mapM_cons, List.forall_mem_cons]
    refine ha.bind fun b => ?_
    refine ((ih has).bind (q := True) fun bs => of_ok (b :: bs)).congr (and_iff_left trivial)

end FitsJust

namespace Hex

theorem fitsJust_encodeQuantity {n : Int} (h : 0 ≤ n) : FitsJust True (encodeQuantity n) := by
  unfold encodeQuantity
  rw [if_neg (Int.not_lt.2 h)]
  exact .of_ok _

/-- A width that can be counted holds the numbers of as many bits. -/
theorem fitsJust_encodeWord (width : Nat) (hwidth : width * 2 ≤ greatestCount) {n : Int} (h : 0 ≤ n) :
    FitsJust (n < twoPow (width * 8)) (encodeWord width n) := by
  have hbits : (width : Int) * 8 < bitLength n.toNat ↔ ¬ n < twoPow (width * 8) := by
    have hnat : width * 8 < bitLength n.toNat ↔ twoPow (width * 8) ≤ n.toNat := lt_bitLength_iff
    omega
  unfold encodeWord
  rw [if_neg (Int.not_lt.2 h)]
  by_cases hn : n < twoPow (width * 8)
  · rw [if_neg (not_not.2 hn ∘ hbits.1), if_neg (Int.not_lt.2 hwidth)]
    exact ⟨fun _ => ⟨_, rfl⟩, fun h => absurd hn h⟩
  · rw [if_pos (hbits.2 hn)]
    exact ⟨fun h => absurd h hn, fun _ => ⟨_, _, rfl⟩⟩

theorem fitsJust_encodeAddress {n : Int} (h : 0 ≤ n) : FitsJust (n < twoPow 160) (encodeAddress n) :=
  fitsJust_encodeWord 20 (by decide) h

theorem fitsJust_encodeWord32 {n : Int} (h : 0 ≤ n) : FitsJust (n < twoPow 256) (encodeWord32 n) :=
  fitsJust_encodeWord 32 (by decide) h

end Hex

end CallTrace
