import CallTrace.Hex.Abbreviated
import CallTrace.Proofs.Hex.Digits
import CallTrace.Proofs.Limits

namespace CallTrace.Hex
open Attempt

theorem pos_of_mem_runs {bs : Octets} {r : UInt8 × Nat} (h : r ∈ runs bs) : 0 < r.2 := by
  unfold runs at h
  induction bs with
  | nil => cases h
  | cons b bs ih =>
    rw [List.foldr_cons] at h
    generalize bs.foldr grow [] = rs at ih h
    cases rs with
    | nil =>
      rw [List.mem_singleton.1 h]
      exact Nat.one_pos
    | cons s rs =>
      obtain ⟨c, n⟩ := s
      rw [grow] at h
      split at h
      · rcases List.mem_cons.1 h with rfl | h
        · exact Nat.succ_pos n
        · exact ih (List.mem_cons_of_mem _ h)
      · rcases List.mem_cons.1 h with rfl | h
        · exact Nat.one_pos
        · exact ih h

theorem length_le_of_mem_runs {bs : Octets} {r : UInt8 × Nat} (h : r ∈ runs bs) : r.2 ≤ bs.length := by
  have hsub := List.sublist_flatten_of_mem (List.mem_map_of_mem (f := fun r => List.replicate r.2 r.1) h)
  rw [← List.flatMap_def, flatMap_runs] at hsub
  simpa using hsub.length_le

/-- The parts between the marks for runs that stand behind octets written in full. -/
def segments (least : Int) : Octets → List (UInt8 × Nat) → List Text
  | full, [] => [pairs full]
  | full, (b, n) :: rs =>
    if least ≤ n then pairs (full ++ [b]) :: evenDigits (n - 1) :: segments least [] rs
    else segments least (full ++ List.replicate n b) rs

theorem split_eq_segments (least : Int) (full : Octets) (rs : List (UInt8 × Nat)) :
    (pairs full ++ rs.flatMap (runText least)).split runMark = segments least full rs := by
  have hmark : Number.isHexDigit runMark = false := by decide
  induction rs generalizing full with
  | nil =>
    rw [List.flatMap_nil, List.append_nil]
    exact List.splitOn_eq_singleton (not_mem_of_allHex (allHex_pairs full) hmark)
  | cons r rs ih =>
    obtain ⟨b, n⟩ := r
    rw [List.flatMap_cons, segments]
    -- A run that is cut short ends the part in front of it, with its octet as the last one.
    by_cases h : least ≤ n
    · have hopen : pairs full ++ (runText least (b, n) ++ rs.flatMap (runText least)) =
          pairs (full ++ [b]) ++ runMark ::
            (evenDigits (n - 1) ++ runMark :: (pairs [] ++ rs.flatMap (runText least))) := by
        simp [runText, h, pairs]
      rw [if_pos h, hopen, ← ih []]
      unfold Text.split
      rw [List.splitOn_append_cons_self_of_not_mem (not_mem_of_allHex (allHex_pairs _) hmark),
        List.splitOn_append_cons_self_of_not_mem (not_mem_of_allHex (allHex_evenDigits _) hmark)]
    · have hfull : pairs full ++ (runText least (b, n) ++ rs.flatMap (runText least)) =
          pairs (full ++ List.replicate n b) ++ rs.flatMap (runText least) := by
        simp [runText, h, pairs]
      rw [if_neg h, hfull, ih]

theorem length_segments (least : Int) (full : Octets) (rs : List (UInt8 × Nat)) :
    (segments least full rs).length % 2 = 1 := by
  induction rs generalizing full with
  | nil => rfl
  | cons r rs ih =>
    obtain ⟨b, n⟩ := r
    rw [segments]
    split
    · have := ih []
      simp only [List.length_cons]
      omega
    · exact ih _

/-- Octets are written for every length from which on runs may be cut. -/
theorem encodeAbbreviated_int {least : Int} (hleast : 1 ≤ least) (bs : Octets) :
    encodeAbbreviated (.int least) bs = .ok (abbreviated least bs) := by
  have hbelow : ¬ (Number.whole least).isBelow (.whole 1) = true := by
    rw [Number.isBelow_whole, decide_eq_true_eq]
    omega
  show (if (Number.whole least).isBelow (.whole 1) = true then _ else _) = _
  rw [if_neg hbelow]
  rfl

section
variable [Limits]

/-- Behind the octets read so far stand those written in full, and then the runs. -/
theorem expand_segments (whole : Text) (least : Int) (done full : Octets) {rs : List (UInt8 × Nat)}
    (hpos : ∀ r ∈ rs, 0 < r.2) (hfits : ∀ r ∈ rs, Octets.Fits (List.replicate r.2 r.1)) :
    expand whole done (segments least full rs) =
      .ok (done.reverse ++ full ++ rs.flatMap fun r => List.replicate r.2 r.1) := by
  induction rs generalizing done full with
  | nil =>
    rw [segments, expand, decode_pairs, ok_bind, List.flatMap_nil, List.append_nil, List.reverseAux_eq]
    rfl
  | cons r rs ih =>
    obtain ⟨b, n⟩ := r
    obtain ⟨hn, hpos⟩ := List.forall_mem_cons.1 hpos
    obtain ⟨hb, hfits⟩ := List.forall_mem_cons.1 hfits
    rw [segments]
    by_cases h : least ≤ n
    · -- The octet stands once in front of the mark, so one repeat fewer than its run is long is counted.
      have hrest : Octets.Fits (List.replicate (n - 1) b) := hb.of_length_le (by simp)
      have hrun : List.replicate n b = b :: List.replicate (n - 1) b := by
        rw [← List.replicate_succ]
        congr 1
        omega
      rw [if_pos h, expand, decode_pairs, ok_bind]
      have hempty : (evenDigits (n - 1)).isEmpty = false := List.isEmpty_eq_false_iff.2 (evenDigits_ne_nil _)
      simp only [hempty, List.reverseAux_eq, List.reverse_append, List.reverse_singleton, List.cons_append,
        Bool.false_eq_true, if_false]
      rw [decodeQuantity_evenDigits, ok_bind, Octets.repeated_of_fits hrest, ok_bind, ih _ _ hpos hfits,
        List.flatMap_cons, hrun]
      simp
    · rw [if_neg h, ih _ _ hpos hfits, List.flatMap_cons]
      simp

/-- Octets are read back from their runs, however long the runs are that have been cut short. -/
theorem decodeAbbreviated_abbreviated (least : Int) {bs : Octets} (h : bs.Fits) :
    decodeAbbreviated (abbreviated least bs) = .ok bs := by
  have hsplit : (unmark (abbreviated least bs)).split runMark = segments least [] (runs bs) :=
    split_eq_segments least [] (runs bs)
  unfold decodeAbbreviated
  simp only [hsplit]
  rw [if_neg (by rw [length_segments]; decide), expand_segments]
  · simp [flatMap_runs]
  · exact fun r hr => pos_of_mem_runs hr
  · exact fun r hr => h.of_length_le (by simpa using length_le_of_mem_runs hr)

/-- Digits without a mark in them are read as octets written in full. -/
theorem decodeAbbreviated_encode (bs : Octets) : decodeAbbreviated (encode bs) = .ok bs := by
  have hsplit : (unmark (encode bs)).split runMark = [pairs bs] :=
    List.splitOn_eq_singleton (not_mem_of_allHex (allHex_pairs bs) (by decide))
  unfold decodeAbbreviated
  simp only [hsplit]
  rw [if_neg (show ¬ [pairs bs].length % 2 = 0 by simp), expand, decode_pairs]
  rfl

theorem decodeAbbreviated_encodeOctets (abbreviate : Bool) {bs : Octets} (h : bs.Fits) :
    decodeAbbreviated (encodeOctets abbreviate bs) = .ok bs := by
  unfold encodeOctets
  cases abbreviate with
  | true => exact decodeAbbreviated_abbreviated defaultThreshold h
  | false => exact decodeAbbreviated_encode bs

/-- Cutting runs short loses nothing: whatever the length from which on runs are cut, octets are read back
from what is written of them. -/
theorem decodeAbbreviated_encodeAbbreviated {least : Int} (hleast : 1 ≤ least) {bs : Octets} (hbs : bs.Fits) :
    (encodeAbbreviated (.int least) bs >>= decodeAbbreviated) = .ok bs := by
  rw [encodeAbbreviated_int hleast, ok_bind, decodeAbbreviated_abbreviated least hbs]

end

def mixedRuns : Octets := 0x01 :: List.replicate 257 0x00 ++ [0xFE, 0x0B, 0x0B]

example : abbreviated 2 mixedRuns = "0x0100~0100~fe0b~01~" := by decide +kernel

theorem decodeAbbreviated_mixedRuns :
    (1 : Int) ≤ 2 ∧ @Octets.Fits .standard mixedRuns ∧
      (encodeAbbreviated (.int 2) mixedRuns >>= @decodeAbbreviated .standard) = .ok mixedRuns := by
  have hfits : @Octets.Fits .standard mixedRuns := by decide +kernel
  exact ⟨by decide, hfits, @decodeAbbreviated_encodeAbbreviated .standard 2 (by decide) mixedRuns hfits⟩

end CallTrace.Hex
