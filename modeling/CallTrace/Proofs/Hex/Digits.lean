import CallTrace.Proofs.Hex.LineEnd

namespace CallTrace.Hex
open Attempt

def AllHex (t : Text) : Prop := ∀ c ∈ t, Number.isHexDigit c = true

theorem allHex_append {s t : Text} : AllHex (s ++ t) ↔ AllHex s ∧ AllHex t := List.forall_mem_append

theorem isHexDigit_digitChar {n : Nat} (h : n < 16) : Number.isHexDigit (.char n.digitChar) = true := by
  unfold Number.isHexDigit
  rw [Number.hexDigitValue?_digitChar n h]
  rfl

theorem not_mem_of_allHex {t : Text} {c : CodePoint} (h : AllHex t) (hc : Number.isHexDigit c = false) :
    c ∉ t := by
  intro hm
  rw [h c hm] at hc
  cases hc

theorem hexDigits_eq (n : Nat) : Number.hexDigits n =
    if n < 16 then [.char n.digitChar]
    else Number.hexDigits (n / 16) ++ [.char (n % 16).digitChar] := by
  unfold Number.hexDigits Text.ofChars
  rw [Nat.toDigits_eq_if (by omega)]
  split <;> simp

theorem ofHexDigits_append_digit (t : Text) {n : Nat} (h : n < 16) :
    Number.ofHexDigits (t ++ [.char n.digitChar]) = Number.ofHexDigits t * 16 + n := by
  unfold Number.ofHexDigits
  rw [List.foldl_append, List.foldl_cons, List.foldl_nil, Number.hexDigitValue?_digitChar n h, Option.getD_some]

theorem ofHexDigits_hexDigits (n : Nat) : Number.ofHexDigits (Number.hexDigits n) = n := by
  induction n using Nat.strongRecOn with
  | ind n ih =>
    rw [hexDigits_eq]
    by_cases h : n < 16
    · rw [if_pos h, ← List.nil_append [_], ofHexDigits_append_digit [] h]
      exact Nat.zero_add n
    · rw [if_neg h, ofHexDigits_append_digit _ (Nat.mod_lt n (by omega)), ih (n / 16) (by omega)]
      omega

theorem allHex_hexDigits (n : Nat) : AllHex (Number.hexDigits n) := by
  induction n using Nat.strongRecOn with
  | ind n ih =>
    rw [hexDigits_eq]
    by_cases h : n < 16
    · rw [if_pos h]
      exact List.forall_mem_singleton.2 (isHexDigit_digitChar h)
    · rw [if_neg h, allHex_append]
      exact ⟨ih (n / 16) (by omega), List.forall_mem_singleton.2 (isHexDigit_digitChar (Nat.mod_lt n (by omega)))⟩

theorem hexDigits_ne_nil (n : Nat) : Number.hexDigits n ≠ [] := by
  simp [Number.hexDigits, Text.ofChars]

/-- Zeros in front of digits change nothing. -/
theorem ofHexDigits_zeros (k : Nat) (t : Text) :
    Number.ofHexDigits (List.replicate k (.char '0') ++ t) = Number.ofHexDigits t := by
  induction k with
  | zero => rfl
  | succ k ih => exact ih

theorem ofHexDigits_append_zeros (t : Text) (k : Nat) :
    Number.ofHexDigits (t ++ List.replicate k (.char '0')) = Number.ofHexDigits t * Nat.pow 16 k := by
  induction k with
  | zero => simp
  | succ k ih =>
    have hlast : Number.ofHexDigits (t ++ List.replicate k (.char '0') ++ [.char '0']) =
        Number.ofHexDigits (t ++ List.replicate k (.char '0')) * 16 + 0 :=
      ofHexDigits_append_digit (n := 0) _ (by decide)
    rw [List.replicate_succ', ← List.append_assoc, hlast, ih, Nat.add_zero, Nat.mul_assoc]
    rfl

theorem allHex_zeros (k : Nat) : AllHex (List.replicate k (.char '0')) := by
  intro c hc
  rw [List.eq_of_mem_replicate hc]
  decide

/-- Digits with zeros in front so that their count is even. -/
theorem evenDigits_eq (n : Nat) : ∃ k, evenDigits n = List.replicate k (.char '0') ++ Number.hexDigits n := by
  unfold evenDigits
  dsimp only
  split
  · exact ⟨1, rfl⟩
  · exact ⟨0, rfl⟩

theorem allHex_evenDigits (n : Nat) : AllHex (evenDigits n) := by
  obtain ⟨k, hk⟩ := evenDigits_eq n
  rw [hk, allHex_append]
  exact ⟨allHex_zeros k, allHex_hexDigits n⟩

theorem ofHexDigits_evenDigits (n : Nat) : Number.ofHexDigits (evenDigits n) = n := by
  obtain ⟨k, hk⟩ := evenDigits_eq n
  rw [hk, ofHexDigits_zeros, ofHexDigits_hexDigits]

theorem evenDigits_ne_nil (n : Nat) : evenDigits n ≠ [] := by
  obtain ⟨k, hk⟩ := evenDigits_eq n
  simp [hk, hexDigits_ne_nil]

theorem allHex_hexPadded (width n : Nat) : AllHex (Number.hexPadded width n) :=
  allHex_append.2 ⟨allHex_zeros _, allHex_hexDigits n⟩

theorem ofHexDigits_hexPadded (width n : Nat) : Number.ofHexDigits (Number.hexPadded width n) = n := by
  unfold Number.hexPadded
  rw [ofHexDigits_zeros, ofHexDigits_hexDigits]

theorem allHex_pairs (bs : Octets) : AllHex (pairs bs) := by
  unfold pairs pair
  intro c hc
  obtain ⟨b, -, hb⟩ := List.mem_flatMap.1 hc
  exact allHex_hexPadded 2 b.toNat c hb

/-- The mark is no digit, so digits never begin with one. -/
theorem unmark_of_allHex {t : Text} (h : AllHex t) : unmark t = t := by
  unfold unmark
  split
  · exact absurd (h (.char 'x') (by simp)) (by decide)
  · exact absurd (h (.char 'X') (by simp)) (by decide)
  · rfl

theorem digits_marked {t : Text} (h : AllHex t) : digits (marked t) = .ok t :=
  digits_eq_ok.2 ⟨rfl, isDigits_eq_true.2 (.inl h)⟩

theorem digits_of_allHex {t : Text} (h : AllHex t) : digits t = .ok t :=
  digits_eq_ok.2 ⟨(unmark_of_allHex h).symm, isDigits_eq_true.2 (.inl h)⟩

theorem length_pairs (bs : Octets) : (pairs bs).length = 2 * bs.length := by
  unfold pairs
  rw [List.length_flatMap]
  simp only [pair_length]
  simp [Nat.mul_comm]

theorem ofPairs?_pairs (done bs : Octets) : ofPairs? done (pairs bs) = some (done.reverse ++ bs) := by
  induction bs generalizing done with
  | nil => simp [pairs, ofPairs?]
  | cons b bs ih =>
    have hsplit : pairs (b :: bs) =
        .char (b.toNat / 16).digitChar :: .char (b.toNat % 16).digitChar :: pairs bs := by
      rw [pairs, List.flatMap_cons, pair_eq]
      rfl
    rw [hsplit, ofPairs?, octet?_pair]
    simp only
    rw [ih, List.reverse_cons, List.append_assoc, List.singleton_append]

theorem decode_of_digits {s : Text} {bs : Octets} (h : digits s = .ok (pairs bs)) : decode s = .ok bs := by
  unfold decode
  rw [h, ok_bind, if_neg (by rw [length_pairs]; omega), ofPairs?_pairs]
  rfl

theorem decode_pairs (bs : Octets) : decode (pairs bs) = .ok bs :=
  decode_of_digits (digits_of_allHex (allHex_pairs bs))

theorem decode_encode (bs : Octets) : decode (encode bs) = .ok bs :=
  decode_of_digits (digits_marked (allHex_pairs bs))

theorem decodeQuantity_of_digits {s ds : Text} (hs : digits s = .ok ds) (h : AllHex ds) :
    decodeQuantity s = .ok (Number.ofHexDigits ds) := by
  have hend : CodePoint.char '\n' ∉ ds := not_mem_of_allHex h (by decide)
  unfold decodeQuantity
  rw [hs, ok_bind]
  split
  · rfl
  · exact absurd List.mem_cons_self hend
  · rw [List.filter_eq_self.2 fun c hc => by simpa using fun he : c = .char '\n' => hend (he ▸ hc)]
    rfl

theorem decodeQuantity_evenDigits (n : Nat) : decodeQuantity (evenDigits n) = .ok n := by
  rw [decodeQuantity_of_digits (digits_of_allHex (allHex_evenDigits n)) (allHex_evenDigits n),
    ofHexDigits_evenDigits]

/-- A quantity that could be written is read as the same number. -/
theorem decodeQuantity_of_encodeQuantity {n : Int} {t : Text} (h : encodeQuantity n = .ok t) :
    decodeQuantity t = .ok n := by
  unfold encodeQuantity at h
  split at h
  · cases h
  · rename_i hn
    obtain rfl := Except.ok.inj h
    rw [decodeQuantity_of_digits (digits_marked (allHex_evenDigits _)) (allHex_evenDigits _),
      ofHexDigits_evenDigits, Int.toNat_of_nonneg (Int.not_lt.1 hn)]

/-- So is a number written in a fixed width. -/
theorem decodeQuantity_of_encodeWord {width n : Int} {t : Text} (h : encodeWord width n = .ok t) :
    decodeQuantity t = .ok n := by
  unfold encodeWord at h
  split at h
  · cases h
  · rename_i hn
    split at h
    · cases h
    · split at h
      · cases h
      · obtain rfl := Except.ok.inj h
        rw [decodeQuantity_of_digits (digits_marked (allHex_hexPadded _ _)) (allHex_hexPadded _ _),
          ofHexDigits_hexPadded, Int.toNat_of_nonneg (Int.not_lt.1 hn)]

end CallTrace.Hex
