import CallTrace.Proofs.Hex.Abbreviated
import CallTrace.Proofs.Hex.Acceptance
import Mathlib.Data.List.Chain

namespace CallTrace.Hex
open Attempt

/-- The runs of one octet that octets are made of, none of them empty, and none that could be longer. -/
structure IsRuns (bs : Octets) (rs : List (UInt8 × Nat)) : Prop where
  joined : rs.flatMap (fun r => List.replicate r.2 r.1) = bs
  pos : ∀ r ∈ rs, 0 < r.2
  longest : rs.IsChain fun r s => r.1 ≠ s.1

/-- The shortest text of an even count of lower case digits, but of some, for a number. -/
structure IsEvenHex (n : Nat) (t : Text) : Prop where
  lower : ∀ c ∈ t, ∃ d < 16, c = .char d.digitChar
  value : base16 t = n
  even : t.length % 2 = 0
  nonempty : t ≠ []
  shortest : ∀ u, AllHex u → base16 u = n → u.length % 2 = 0 → u ≠ [] → t.length ≤ u.length

def lowerPair (b : UInt8) : Text := [.char (b.toNat / 16).digitChar, .char (b.toNat % 16).digitChar]

inductive WritesRun (least : Int) : UInt8 × Nat → Text → Prop
  | cut {b : UInt8} {n : Nat} {count : Text} : least ≤ n → IsEvenHex (n - 1) count →
      WritesRun least (b, n) (lowerPair b ++ .char '~' :: count ++ [.char '~'])
  | full {b : UInt8} {n : Nat} : n < least → WritesRun least (b, n) (List.replicate n (lowerPair b)).flatten

theorem isChain_grow {b : UInt8} {rs : List (UInt8 × Nat)} (h : rs.IsChain fun r s => r.1 ≠ s.1) :
    (grow b rs).IsChain fun r s => r.1 ≠ s.1 := by
  match rs, h with
  | [], _ => exact .singleton _
  | (c, n) :: rs, h =>
    rw [grow]
    split
    · exact List.isChain_cons.2 ⟨fun s hs => h.rel_head? hs, h.tail⟩
    · rename_i hne
      exact .cons_cons hne h

theorem isRuns_runs (bs : Octets) : IsRuns bs (runs bs) := by
  refine ⟨flatMap_runs bs, fun r hr => pos_of_mem_runs hr, ?_⟩
  unfold runs
  induction bs with
  | nil => exact .nil
  | cons b bs ih => exact isChain_grow ih

theorem runs_replicate_append {b : UInt8} {n : Nat} (hn : 0 < n) {bs : Octets}
    (h : ∀ r ∈ (runs bs).head?, b ≠ r.1) : runs (List.replicate n b ++ bs) = (b, n) :: runs bs := by
  induction n, hn using Nat.le_induction with
  | base =>
    show grow b (runs bs) = _
    cases hruns : runs bs with
    | nil => rfl
    | cons r rs =>
      rw [hruns] at h
      exact if_neg (h r rfl)
  | succ n _ ih =>
    show grow b (runs (List.replicate n b ++ bs)) = _
    rw [ih]
    exact if_pos rfl

/-- Octets are made of such runs in one way only. -/
theorem isRuns_iff {bs : Octets} {rs : List (UInt8 × Nat)} : IsRuns bs rs ↔ rs = runs bs := by
  refine ⟨fun h => ?_, fun h => h ▸ isRuns_runs bs⟩
  induction rs generalizing bs with
  | nil =>
    rw [← h.joined]
    rfl
  | cons r rs ih =>
    obtain ⟨hn, hpos⟩ := List.forall_mem_cons.1 h.pos
    obtain ⟨hhead, hlongest⟩ := List.isChain_cons.1 h.longest
    have hrest := ih ⟨rfl, hpos, hlongest⟩
    -- The run behind the first one is of another octet, so the first one takes in all there is of its own.
    rw [hrest] at hhead
    rw [← h.joined, List.flatMap_cons, runs_replicate_append hn hhead, ← hrest]

theorem base16_lt (t : Text) : base16 t < 16 ^ t.length := by
  have hdigits : ∀ d ∈ (t.filterMap Number.hexDigitValue?).reverse, d < 16 := by
    intro d hd
    obtain ⟨c, -, hc⟩ := List.mem_filterMap.1 (List.mem_reverse.1 hd)
    exact hexDigitValue?_lt hc
  refine (Nat.ofDigits_lt_base_pow_length (by decide) hdigits).trans_le (Nat.pow_le_pow_right (by decide) ?_)
  rw [List.length_reverse]
  exact List.length_filterMap_le _ t

theorem length_hexDigits_le {n k : Nat} (hk : 0 < k) (h : n < 16 ^ k) : (Number.hexDigits n).length ≤ k := by
  unfold Number.hexDigits Text.ofChars
  rw [List.length_map]
  exact (Nat.length_toDigits_le_iff (by decide) hk).2 h

theorem length_evenDigits_mod_two (n : Nat) : (evenDigits n).length % 2 = 0 := by
  unfold evenDigits
  dsimp only
  split
  · rw [List.length_cons]
    omega
  · omega

theorem length_evenDigits_le {n k : Nat} (hk : 0 < k) (h : n < 16 ^ (2 * k)) : (evenDigits n).length ≤ 2 * k := by
  have hdigits := length_hexDigits_le (by omega) h
  unfold evenDigits
  dsimp only
  split
  · rw [List.length_cons]
    omega
  · exact hdigits

theorem exists_digitChar_of_mem_hexDigits {n : Nat} {c : CodePoint} (h : c ∈ Number.hexDigits n) :
    ∃ d < 16, c = .char d.digitChar := by
  induction n using Nat.strongRecOn with
  | ind n ih =>
    rw [hexDigits_eq] at h
    by_cases hn : n < 16
    · rw [if_pos hn, List.mem_singleton] at h
      exact ⟨n, hn, h⟩
    · rw [if_neg hn, List.mem_append, List.mem_singleton] at h
      rcases h with h | h
      · exact ih (n / 16) (by omega) h
      · exact ⟨n % 16, Nat.mod_lt n (by decide), h⟩

theorem isEvenHex_evenDigits (n : Nat) : IsEvenHex n (evenDigits n) where
  lower c hc := by
    obtain ⟨k, hk⟩ := evenDigits_eq n
    rw [hk, List.mem_append] at hc
    rcases hc with hc | hc
    · exact ⟨0, by decide, List.eq_of_mem_replicate hc⟩
    · exact exists_digitChar_of_mem_hexDigits hc
  value := by rw [← ofHexDigits_eq_base16 (allHex_evenDigits n), ofHexDigits_evenDigits]
  even := length_evenDigits_mod_two n
  nonempty := evenDigits_ne_nil n
  shortest u _ hu heven hne := by
    have hlength := List.length_pos_iff.2 hne
    -- Digits denote less than the power of their count, so too few of them do not reach the number.
    have hlt := base16_lt u
    rw [hu, show u.length = 2 * (u.length / 2) by omega] at hlt
    have hle := length_evenDigits_le (by omega) hlt
    omega

theorem writesRun_runText (least : Int) (r : UInt8 × Nat) : WritesRun least r (runText least r) := by
  obtain ⟨b, n⟩ := r
  have hpair : pair b = lowerPair b := pair_eq b
  unfold runText
  by_cases h : least ≤ n
  · rw [if_pos h, hpair]
    exact .cut h (isEvenHex_evenDigits (n - 1))
  · rw [if_neg h, pairs, List.flatMap_replicate, hpair]
    exact .full (Int.not_le.1 h)

theorem runText_of_lt {least : Int} {r : UInt8 × Nat} (h : r.2 < least) :
    runText least r = pairs (List.replicate r.2 r.1) := if_neg (Int.not_le.2 h)

theorem pairs_flatMap_runs (bs : Octets) : (runs bs).flatMap (fun r => pairs (List.replicate r.2 r.1)) = pairs bs := by
  conv_rhs => rw [← flatMap_runs bs]
  unfold pairs
  rw [List.flatMap_assoc]

/-- A run that is cut short leaves a mark that octets in full never have. -/
theorem abbreviated_eq_encode_iff {least : Int} {bs : Octets} :
    abbreviated least bs = encode bs ↔ ∀ r ∈ runs bs, r.2 < least := by
  have hmarked : ∀ t u : Text, marked t = marked u ↔ t = u := fun t u => by simp [marked]
  rw [abbreviated, encode, hmarked]
  constructor
  · intro h r hr
    by_contra hlong
    have hmark : runMark ∈ (runs bs).flatMap (runText least) := by
      refine List.mem_flatMap.2 ⟨r, hr, ?_⟩
      rw [runText, if_pos (Int.not_lt.1 hlong)]
      simp
    rw [h] at hmark
    exact not_mem_of_allHex (allHex_pairs bs) (by decide) hmark
  · intro h
    rw [← pairs_flatMap_runs]
    exact List.flatMap_congr fun r hr => runText_of_lt (h r hr)

/-- With the count of its repeats, a run of three octets or more takes no more room than in full. -/
theorem length_runText_le {least : Int} (hleast : 3 ≤ least) (r : UInt8 × Nat) :
    (runText least r).length ≤ 2 * r.2 := by
  obtain ⟨b, n⟩ := r
  by_cases h : least ≤ n
  · have hcount : (evenDigits (n - 1)).length ≤ 2 * (n - 2) := by
      refine length_evenDigits_le (by omega) ?_
      have hpow : n - 2 < 2 ^ (n - 2) := Nat.lt_two_pow_self
      calc n - 1 ≤ 2 ^ (n - 2) := by omega
        _ < 2 ^ (4 * (2 * (n - 2))) := Nat.pow_lt_pow_right (by decide) (by omega)
        _ = 16 ^ (2 * (n - 2)) := Nat.pow_mul 2 4 _
    rw [runText, if_pos h]
    simp only [List.length_append, List.length_cons, List.length_nil, pair_length]
    omega
  · rw [runText_of_lt (Int.not_le.1 h), length_pairs, List.length_replicate]

theorem length_abbreviated_le {least : Int} (hleast : 3 ≤ least) (bs : Octets) :
    (abbreviated least bs).length ≤ (encode bs).length := by
  have hruns : ∀ rs : List (UInt8 × Nat), (rs.flatMap (runText least)).length ≤
      (rs.flatMap fun r => pairs (List.replicate r.2 r.1)).length := by
    intro rs
    induction rs with
    | nil => exact Nat.le_refl 0
    | cons r rs ih =>
      have hrun := length_runText_le hleast r
      rw [List.flatMap_cons, List.flatMap_cons, List.length_append, List.length_append, length_pairs,
        List.length_replicate]
      omega
  have hlength := hruns (runs bs)
  rw [pairs_flatMap_runs] at hlength
  exact Nat.add_le_add_right hlength 2

/-- Octets are made of runs in one way, and each run is written by itself: its octet and the shortest even count of its
repeats if it has the least length at which runs are cut, and in full if not. So all is in full just if there is no such
run, and from a least length of three on nothing is longer than in full. -/
theorem encodeAbbreviated_runs {least : Int} (hleast : 1 ≤ least) (bs : Octets) :
    ∃ rs ts, (∀ rs', IsRuns bs rs' ↔ rs' = rs) ∧ List.Forall₂ (WritesRun least) rs ts ∧
      encodeAbbreviated (.int least) bs = .ok (marked ts.flatten) ∧
      (encodeAbbreviated (.int least) bs = .ok (encode bs) ↔ ∀ r ∈ rs, r.2 < least) ∧
      (3 ≤ least → (marked ts.flatten).length ≤ (encode bs).length) := by
  have hwritten : marked ((runs bs).map (runText least)).flatten = abbreviated least bs := by
    rw [abbreviated, List.flatMap_def]
  rw [encodeAbbreviated_int hleast]
  refine ⟨runs bs, (runs bs).map (runText least), fun rs' => isRuns_iff, ?_, ?_, ?_, fun h => ?_⟩
  · exact List.forall₂_map_right_iff.2 (List.forall₂_same.2 fun r _ => writesRun_runText least r)
  · rw [hwritten]
  · rw [Except.ok.injEq]
    exact abbreviated_eq_encode_iff
  · rw [hwritten]
    exact length_abbreviated_le h bs

example : abbreviated 3 mixedRuns = "0x0100~0100~fe0b0b" := by decide +kernel

theorem encodeAbbreviated_runs_mixedRuns : (1 : Int) ≤ 3 ∧
    IsRuns mixedRuns [(0x01, 1), (0x00, 257), (0xFE, 1), (0x0B, 2)] ∧
    ∃ ts, List.Forall₂ (WritesRun 3) [(0x01, 1), (0x00, 257), (0xFE, 1), (0x0B, 2)] ts ∧
      encodeAbbreviated (.int 3) mixedRuns = .ok (marked ts.flatten) ∧
      encodeAbbreviated (.int 3) mixedRuns ≠ .ok (encode mixedRuns) ∧
      (marked ts.flatten).length ≤ (encode mixedRuns).length := by
  have hruns : IsRuns mixedRuns [(0x01, 1), (0x00, 257), (0xFE, 1), (0x0B, 2)] :=
    ⟨by decide +kernel, by decide, by decide⟩
  have hleast : (1 : Int) ≤ 3 := by decide
  obtain ⟨rs, ts, hone, hwrites, hencode, hplain, hlength⟩ := encodeAbbreviated_runs hleast mixedRuns
  obtain rfl := (hone _).1 hruns
  refine ⟨hleast, hruns, ts, hwrites, hencode, fun h => ?_, hlength (by decide)⟩
  exact absurd (hplain.1 h (0x00, 257) (by simp)) (by decide)

end CallTrace.Hex
