import CallTrace.Proofs.Hex.Runs
import CallTrace.Proofs.Hex.Width

namespace CallTrace.Hex
open Attempt

/-- A number as a word of so many octets: two lower case digits for each octet, read as the number and as those
octets. -/
structure IsWord (width n : Nat) (t : Text) : Prop where
  digits : ∃ ds, t = marked ds ∧ ds.length = 2 * width ∧ ∀ c ∈ ds, ∃ d < 16, c = .char d.digitChar
  quantity : decodeQuantity t = .ok n
  octets : ∃ bs, decode t = .ok bs ∧ bs.length = width ∧ Text.ByteOrder.big.value bs = n

structure WritesExactly (width n : Nat) (x : Except Fault Text) : Prop where
  writes : n < 256 ^ width → ∃ t, x = .ok t ∧ IsWord width n t
  refuses : 256 ^ width ≤ n → x = .error (.valueTooLarge n (.int width))

theorem pow_256 (width : Nat) : 256 ^ width = 16 ^ (2 * width) := (Nat.pow_mul 16 2 width).symm

theorem length_hexPadded {width n : Nat} (h : (Number.hexDigits n).length ≤ width) :
    (Number.hexPadded width n).length = width := by
  unfold Number.hexPadded
  rw [List.length_append, List.length_replicate, Nat.sub_add_cancel h]

theorem exists_digitChar_of_mem_hexPadded {width n : Nat} {c : CodePoint} (h : c ∈ Number.hexPadded width n) :
    ∃ d < 16, c = .char d.digitChar := by
  rcases List.mem_append.1 h with h | h
  · exact ⟨0, by decide, List.eq_of_mem_replicate h⟩
  · exact exists_digitChar_of_mem_hexDigits h

theorem length_of_denotes {t : Text} {bs : Octets} (h : Denotes t bs) : t.length = 2 * bs.length := by
  have hlength := congrArg List.length h
  rw [List.length_map, List.length_flatMap] at hlength
  simpa [Nat.mul_comm] using hlength

/-- Digits are the same number digit by digit and octet by octet. -/
theorem ofHexDigits_of_denotes {t : Text} {bs : Octets} (h : Denotes t bs) :
    Number.ofHexDigits t = Text.ByteOrder.big.value bs := by
  suffices hfold : ∀ n, t.foldl (fun n c => n * 16 + (Number.hexDigitValue? c).getD 0) n =
      bs.foldl (fun n b => n * 256 + b.toNat) n from hfold 0
  induction bs generalizing t with
  | nil =>
    obtain rfl : t = [] := List.map_eq_nil_iff.1 h
    exact fun n => rfl
  | cons b bs ih =>
    match t, h with
    | [], h => cases h
    | [c], h => exact absurd h (not_denotes_singleton c _)
    | high :: low :: t, h =>
      obtain ⟨b', bs', hbs, hpair, hrest⟩ := denotes_cons.1 h
      obtain ⟨rfl, rfl⟩ := List.cons.inj hbs
      obtain ⟨hhigh, hlow⟩ := octet?_eq_some_iff.1 hpair
      intro n
      have hstep : (n * 16 + b.toNat / 16) * 16 + b.toNat % 16 = n * 256 + b.toNat := by omega
      simp only [List.foldl_cons, hhigh, hlow, Option.getD_some, hstep]
      exact ih hrest (n * 256 + b.toNat)

theorem isWord_hexPadded {width n : Nat} (hwidth : 1 ≤ width) (hn : n < 256 ^ width) :
    IsWord width n (marked (Number.hexPadded (2 * width) n)) := by
  rw [pow_256] at hn
  have hlength : (Number.hexPadded (2 * width) n).length = 2 * width :=
    length_hexPadded (length_hexDigits_le (by omega) hn)
  have hhex : AllHex (Number.hexPadded (2 * width) n) := allHex_hexPadded _ _
  obtain ⟨bs, hbs⟩ := exists_denotes_iff.2 ⟨by omega, hhex⟩
  refine ⟨⟨_, rfl, hlength, fun c => exists_digitChar_of_mem_hexPadded⟩, ?_, bs, decode_eq_ok_iff.2 hbs, ?_, ?_⟩
  · rw [decodeQuantity_of_digits (digits_marked hhex) hhex, ofHexDigits_hexPadded]
  · have hoctets := length_of_denotes hbs
    omega
  · rw [← ofHexDigits_of_denotes hbs, ofHexDigits_hexPadded]

/-- In a width a number is too large, or the width itself is, or it is written. -/
theorem encodeWord_natural (width n : Nat) : encodeWord width n =
    if 256 ^ width ≤ n then .error (.valueTooLarge n (.int width))
    else if greatestCount < width * 2 then .error .widthTooLarge
    else .ok (marked (Number.hexPadded (2 * width) n)) := by
  have hbits : (width : Int) * 8 < bitLength n ↔ 256 ^ width ≤ n := by
    have hpow : twoPow (8 * width) = 256 ^ width := Nat.pow_mul 2 8 width
    have hnat := lt_bitLength_iff (k := 8 * width) (n := n)
    rw [hpow] at hnat
    omega
  have hdigits : ((width : Int) * 2).toNat = 2 * width := by omega
  unfold encodeWord
  rw [if_neg (by omega), Int.toNat_natCast, hdigits]
  simp only [hbits]

theorem encodeIn_natural (width n : Nat) : @encodeIn .unbounded (.int width) n = encodeWord width n := by
  have hn : ¬ (n : Int) < 0 := by omega
  simp [encodeIn, Json.toNumber, Json.number?, hn, Limits.admitsOctets_unbounded]

/-- A width that holds a number writes it as far as its digits can be counted. -/
theorem writesExactly_iff {width : Nat} (hwidth : 1 ≤ width) (n : Nat) :
    WritesExactly width n (@encodeIn .unbounded (.int width) n) ↔ 256 ^ width ≤ n ∨ width * 2 ≤ greatestCount := by
  rw [encodeIn_natural, encodeWord_natural]
  constructor
  · intro h
    by_contra hnot
    obtain ⟨hn, hlarge⟩ := not_or.1 hnot
    obtain ⟨t, ht, -⟩ := h.writes (Nat.not_le.1 hn)
    rw [if_neg hn, if_pos (Int.not_le.1 hlarge)] at ht
    cases ht
  · intro h
    refine ⟨fun hn => ?_, fun hn => if_pos hn⟩
    have hcount : width * 2 ≤ greatestCount := h.resolve_left (Nat.not_le.2 hn)
    rw [if_neg (Nat.not_le.2 hn), if_neg (Int.not_lt.2 hcount)]
    exact ⟨_, rfl, isWord_hexPadded hwidth hn⟩

theorem encodeIn_null (n : Nat) : @encodeIn .unbounded .null n = .ok (marked (evenDigits n)) := by
  have hn : ¬ (n : Int) < 0 := by omega
  simp [encodeIn, encodeQuantity, hn]

/-- A number is written exactly in each width whose digits can be counted; where a width does not hold it, it is refused
as too large, however wide that is. Without a width it takes the fewest octets, and one at least. -/
theorem encodeIn_exact (n : Nat) :
    (∀ width : Nat, 1 ≤ width → width * 2 ≤ greatestCount →
      WritesExactly width n (@encodeIn .unbounded (.int width) n)) ∧
      (∀ width : Nat, 1 ≤ width → 256 ^ width ≤ n →
        @encodeIn .unbounded (.int width) n = .error (.valueTooLarge n (.int width))) ∧
      ∃ ds, @encodeIn .unbounded .null n = .ok (marked ds) ∧ decodeQuantity (marked ds) = .ok n ∧ IsEvenHex n ds := by
  refine ⟨fun width hwidth hcount => (writesExactly_iff hwidth n).2 (.inr hcount),
    fun width hwidth hn => ((writesExactly_iff hwidth n).2 (.inl hn)).refuses hn, evenDigits n, encodeIn_null n, ?_,
    isEvenHex_evenDigits n⟩
  rw [decodeQuantity_of_digits (digits_marked (allHex_evenDigits n)) (allHex_evenDigits n), ofHexDigits_evenDigits]

/-- A width of two octets holds all numbers up to its greatest one. -/
theorem encodeIn_exact_twoOctets : 1 ≤ 2 ∧ 2 * 2 ≤ greatestCount ∧
    (∃ t, @encodeIn .unbounded (.int 2) 0xFFFF = .ok t ∧ IsWord 2 0xFFFF t) ∧
    @encodeIn .unbounded (.int 2) 0x10000 = .error (.valueTooLarge 0x10000 (.int 2)) := by
  have hwidth : 1 ≤ 2 := by decide
  have hcount : 2 * 2 ≤ greatestCount := by decide
  have hgreatest := (encodeIn_exact 0xFFFF).1 2 hwidth hcount
  exact ⟨hwidth, hcount, hgreatest.writes (by decide), (encodeIn_exact 0x10000).2.1 2 hwidth (by decide)⟩

end CallTrace.Hex
