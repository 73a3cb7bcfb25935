import CallTrace.Proofs.Fault
import CallTrace.Hex.Quantity

namespace CallTrace.Hex
open Attempt

def IsLineEnd (s : Text) : Prop := unmark s = [.char '\n']

def IsOddLine (s : Text) : Prop :=
  ∃ ds, unmark s = ds ++ [.char '\n'] ∧ ds.length % 2 = 1 ∧ ∀ c ∈ ds, Number.isHexDigit c = true

theorem isDigits_eq_true {t : Text} : isDigits t = true ↔ (∀ c ∈ t, Number.isHexDigit c = true) ∨
    ∃ ds, t = ds ++ [.char '\n'] ∧ ∀ c ∈ ds, Number.isHexDigit c = true := by
  fun_induction isDigits t with
  | case1 => simp
  | case2 =>
    refine iff_of_true rfl (.inr ⟨[], rfl, by simp⟩)
  | case3 c t hne ih =>
    rw [Bool.and_eq_true, ih, List.forall_mem_cons]
    constructor
    · rintro ⟨hc, hall | ⟨ds, rfl, hds⟩⟩
      · exact .inl ⟨hc, hall⟩
      · exact .inr ⟨c :: ds, rfl, List.forall_mem_cons.2 ⟨hc, hds⟩⟩
    · rintro (⟨hc, hall⟩ | ⟨ds, ht, hds⟩)
      · exact ⟨hc, .inl hall⟩
      · cases ds with
        | nil =>
          obtain ⟨rfl, rfl⟩ := List.cons.inj ht
          exact absurd rfl (hne rfl)
        | cons d ds =>
          obtain ⟨rfl, rfl⟩ := List.cons.inj ht
          obtain ⟨hc, hds⟩ := List.forall_mem_cons.1 hds
          exact ⟨hc, .inr ⟨ds, rfl, hds⟩⟩

theorem isSome_octet? (high low : CodePoint) : (octet? high low).isSome = true ↔
    Number.isHexDigit high = true ∧ Number.isHexDigit low = true := by
  unfold octet? Number.isHexDigit
  cases Number.hexDigitValue? high <;> cases Number.hexDigitValue? low <;> simp

/-- Pairs of digits are octets if they are all digits, and no digit stands alone. -/
theorem isSome_ofPairs? (done : Octets) (t : Text) : (ofPairs? done t).isSome = true ↔
    t.length % 2 = 0 ∧ ∀ c ∈ t, Number.isHexDigit c = true := by
  fun_induction ofPairs? done t with
  | case1 => simp
  | case2 done high low t b hb ih =>
    have hpair := (isSome_octet? high low).1 (Option.isSome_iff_exists.2 ⟨b, hb⟩)
    rw [ih, List.length_cons, List.length_cons, List.forall_mem_cons, List.forall_mem_cons]
    constructor
    · rintro ⟨hlen, ht⟩
      exact ⟨by omega, hpair.1, hpair.2, ht⟩
    · rintro ⟨hlen, -, -, ht⟩
      exact ⟨by omega, ht⟩
  | case3 done high low t hb =>
    have hpair := (isSome_octet? high low).not.1 (by rw [hb]; exact Bool.false_ne_true)
    rw [List.forall_mem_cons, List.forall_mem_cons]
    refine iff_of_false Bool.false_ne_true fun h => hpair ⟨h.2.1, h.2.2.1⟩
  | case4 => simp

theorem escapes_digits (s : Text) : ¬ Escapes (digits s) := by
  unfold digits
  dsimp only
  split
  · exact not_escapes_ok _
  · exact not_escapes_of_isDomain rfl

theorem digits_eq_ok {s ds : Text} : digits s = .ok ds ↔ ds = unmark s ∧ isDigits ds = true := by
  unfold digits
  dsimp only
  by_cases h : isDigits (unmark s) = true
  · rw [if_pos h, Except.ok.injEq]
    exact ⟨fun he => ⟨he.symm, he ▸ h⟩, fun he => he.1.symm⟩
  · rw [if_neg h]
    refine iff_of_false nofun ?_
    rintro ⟨rfl, ht⟩
    exact h ht

theorem escapes_decodeQuantity {s : Text} : Escapes (decodeQuantity s) ↔ IsLineEnd s := by
  unfold decodeQuantity IsLineEnd
  rw [escapes_bind]
  constructor
  · rintro (h | ⟨ds, hds, h⟩)
    · exact absurd h (escapes_digits s)
    · obtain ⟨rfl, -⟩ := digits_eq_ok.1 hds
      split at h
      · exact absurd h (not_escapes_ok _)
      · assumption
      · exact absurd h (not_escapes_ok _)
  · intro h
    refine .inr ⟨[.char '\n'], digits_eq_ok.2 ⟨h.symm, rfl⟩, ?_⟩
    exact Fault.Stray.escapes ⟨rfl, nofun⟩

theorem escapes_decode {s : Text} : Escapes (decode s) ↔ IsOddLine s := by
  unfold decode IsOddLine
  rw [escapes_bind]
  constructor
  · rintro (h | ⟨ds, hds, h⟩)
    · exact absurd h (escapes_digits s)
    · obtain ⟨rfl, hdigits⟩ := digits_eq_ok.1 hds
      by_cases hlen : (unmark s).length % 2 = 1
      · rw [if_pos hlen] at h
        exact absurd h (not_escapes_of_isDomain rfl)
      · rw [if_neg hlen] at h
        have hpairs := isSome_ofPairs? [] (unmark s)
        rcases isDigits_eq_true.1 hdigits with hall | ⟨ds, hline, hds⟩
        · obtain ⟨bs, hbs⟩ := Option.isSome_iff_exists.1 (hpairs.2 ⟨by omega, hall⟩)
          rw [hbs] at h
          exact absurd h (not_escapes_ok _)
        · refine ⟨ds, hline, ?_, hds⟩
          rw [hline, List.length_append, List.length_singleton] at hlen
          omega
  · rintro ⟨ds, hline, hodd, hds⟩
    refine .inr ⟨unmark s, digits_eq_ok.2 ⟨rfl, isDigits_eq_true.2 (.inr ⟨ds, hline, hds⟩)⟩, ?_⟩
    -- With the line end the count is even, and so it is the last pair that is no octet.
    have hnone : ofPairs? [] (unmark s) = none := by
      rw [← Option.not_isSome_iff_eq_none, isSome_ofPairs?, hline]
      rintro ⟨-, hall⟩
      have hend := hall (.char '\n') (by simp)
      revert hend
      decide
    rw [if_neg (by rw [hline, List.length_append, List.length_singleton]; omega), hnone]
    exact Fault.Stray.escapes ⟨rfl, nofun⟩

/-- A value as a quantity lets a fault out if it is a line end alone. -/
theorem escapes_quantity {j : Json} : Escapes (quantity j) ↔ ∃ s, j = .text s ∧ IsLineEnd s := by
  cases j with
  | int n => simp [quantity, not_escapes_ok]
  | text s =>
    show Escapes (decodeQuantity s) ↔ _
    simp [escapes_decodeQuantity]
  | _ => refine iff_of_false (not_escapes_of_isDomain rfl) (by simp)

/-- A value as octets lets a fault out if it is a line with an odd number of digits. -/
theorem escapes_octets {j : Json} : Escapes (octets j) ↔ ∃ s, j = .text s ∧ IsOddLine s := by
  cases j with
  | text s =>
    show Escapes (decode s) ↔ _
    simp [escapes_decode]
  | _ => refine iff_of_false (not_escapes_of_isDomain rfl) (by simp)

end CallTrace.Hex
