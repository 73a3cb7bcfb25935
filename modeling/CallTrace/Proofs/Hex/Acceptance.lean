import CallTrace.Hex.Abbreviated
import CallTrace.Proofs.Hex.Digits
import Mathlib.Data.List.Induction
import Mathlib.Data.Nat.Digits.Defs

namespace CallTrace.Hex
open Attempt

def Denotes (t : Text) (bs : Octets) : Prop :=
  t.map Number.hexDigitValue? = bs.flatMap fun b => [some (b.toNat / 16), some (b.toNat % 16)]

instance (t : Text) : Decidable (AllHex t) := inferInstanceAs (Decidable (∀ c ∈ t, Number.isHexDigit c = true))

def base16 (t : Text) : Nat := Nat.ofDigits 16 (t.filterMap Number.hexDigitValue?).reverse

def IsLine (s : Text) : Prop := ∃ ds, unmark s = ds ++ [.char '\n'] ∧ AllHex ds

/-- The digits that a quantity is read from: all that there is, or all but a line end behind some. -/
def Spells (s ds : Text) : Prop := AllHex ds ∧ (unmark s = ds ∨ ds ≠ [] ∧ unmark s = ds ++ [.char '\n'])

/-- The text is read as octets just if it is an even count of digits, and refused as malformed if not. -/
structure ReadsOctets (s : Text) : Prop where
  reads : (unmark s).length % 2 = 0 → AllHex (unmark s) → ∃ bs, decode s = .ok bs ∧ Denotes (unmark s) bs
  refuses : ¬ ((unmark s).length % 2 = 0 ∧ AllHex (unmark s)) →
    ∃ f, decode s = .error f ∧ f.family? = some .malformedHex

structure ReadsQuantity (s : Text) : Prop where
  reads : AllHex (unmark s) → decodeQuantity s = .ok (base16 (unmark s))
  refuses : ¬ AllHex (unmark s) → ∃ f, decodeQuantity s = .error f ∧ f.family? = some .malformedHex

theorem distance_le {c low high : CodePoint} (h : c.isWithin low high = true) :
    c.distance low ≤ high.distance low := by
  rw [CodePoint.isWithin, Bool.and_eq_true, decide_eq_true_eq, decide_eq_true_eq] at h
  exact Nat.sub_le_sub_right h.2 _

theorem hexDigitValue?_lt {c : CodePoint} {n : Nat} (h : Number.hexDigitValue? c = some n) : n < 16 := by
  have hdecimal : CodePoint.distance '9' '0' = 9 := rfl
  have hlower : CodePoint.distance 'f' 'a' = 5 := rfl
  have hupper : CodePoint.distance 'F' 'A' = 5 := rfl
  unfold Number.hexDigitValue? at h
  split at h
  · rename_i hc
    have hle := distance_le hc
    obtain rfl := Option.some.inj h
    omega
  · split at h
    · rename_i hc
      have hle := distance_le hc
      obtain rfl := Option.some.inj h
      omega
    · split at h
      · rename_i hc
        have hle := distance_le hc
        obtain rfl := Option.some.inj h
        omega
      · cases h

theorem octet?_eq_some_iff {high low : CodePoint} {b : UInt8} : octet? high low = some b ↔
    Number.hexDigitValue? high = some (b.toNat / 16) ∧ Number.hexDigitValue? low = some (b.toNat % 16) := by
  unfold octet?
  constructor
  · intro h
    obtain ⟨m, hm, h⟩ := Option.bind_eq_some_iff.1 h
    obtain ⟨n, hn, h⟩ := Option.bind_eq_some_iff.1 h
    obtain rfl := Option.some.inj h
    have hm16 := hexDigitValue?_lt hm
    have hn16 := hexDigitValue?_lt hn
    rw [UInt8.toNat_ofNat', Nat.mod_eq_of_lt (by omega), hm, hn]
    exact ⟨congrArg some (by omega), congrArg some (by omega)⟩
  · rintro ⟨hm, hn⟩
    rw [hm, hn]
    show some (UInt8.ofNat (16 * (b.toNat / 16) + b.toNat % 16)) = some b
    rw [Nat.div_add_mod, UInt8.ofNat_toNat]

theorem denotes_nil {bs : Octets} : Denotes [] bs ↔ bs = [] := by
  cases bs <;> simp [Denotes]

theorem not_denotes_singleton (c : CodePoint) (bs : Octets) : ¬ Denotes [c] bs := by
  cases bs <;> simp [Denotes]

theorem denotes_cons {high low : CodePoint} {t : Text} {bs : Octets} : Denotes (high :: low :: t) bs ↔
    ∃ b rest, bs = b :: rest ∧ octet? high low = some b ∧ Denotes t rest := by
  cases bs with
  | nil => simp [Denotes]
  | cons b rest => simp [Denotes, octet?_eq_some_iff, and_assoc]

theorem ofPairs?_eq_some_iff {done : Octets} {t : Text} {bs : Octets} :
    ofPairs? done t = some bs ↔ ∃ rest, bs = done.reverse ++ rest ∧ Denotes t rest := by
  fun_induction ofPairs? done t with
  | case1 done => simp [denotes_nil, eq_comm]
  | case2 done high low t b hb ih => simp [ih, denotes_cons, hb]
  | case3 done high low t hb => simp [denotes_cons, hb]
  | case4 done c => simp [not_denotes_singleton]

/-- Digits denote octets if there is an even count of them. -/
theorem exists_denotes_iff {t : Text} : (∃ bs, Denotes t bs) ↔ t.length % 2 = 0 ∧ AllHex t := by
  unfold AllHex
  rw [← isSome_ofPairs? [] t, Option.isSome_iff_exists]
  simp [ofPairs?_eq_some_iff]

theorem ofHexDigits_eq_base16 {t : Text} (h : AllHex t) : Number.ofHexDigits t = base16 t := by
  -- The last digit counts as itself, and so the digits are taken off from the end.
  induction t using List.reverseRecOn with
  | nil => rfl
  | append_singleton t c ih =>
    obtain ⟨ht, hc⟩ := allHex_append.1 h
    obtain ⟨v, hv⟩ := Option.isSome_iff_exists.1 (hc c List.mem_cons_self)
    have hstep : Number.ofHexDigits (t ++ [c]) = Number.ofHexDigits t * 16 + v := by
      simp [Number.ofHexDigits, hv]
    rw [hstep, ih ht, base16, base16, List.filterMap_append, List.filterMap_cons_some hv, List.filterMap_nil,
      List.reverse_append, List.reverse_singleton, List.singleton_append, Nat.ofDigits_cons]
    omega

/-- Of what passes for digits, a line is all that is none. -/
theorem isDigits_unmark_iff {s : Text} : isDigits (unmark s) = true ↔ AllHex (unmark s) ∨ IsLine s :=
  isDigits_eq_true

theorem not_allHex_of_isLine {s : Text} (h : IsLine s) : ¬ AllHex (unmark s) := by
  obtain ⟨ds, hs, -⟩ := h
  intro hall
  have hend := hall (.char '\n') (by rw [hs]; simp)
  revert hend
  decide

theorem digits_of_not_isDigits {s : Text} (h : ¬ AllHex (unmark s)) (hline : ¬ IsLine s) :
    digits s = .error (.badHexDigits s) := by
  unfold digits
  exact if_neg fun hdigits => (isDigits_unmark_iff.1 hdigits).elim h hline

theorem isLine_of_isOddLine {s : Text} (h : IsOddLine s) : IsLine s := by
  obtain ⟨ds, hs, -, hds⟩ := h
  exact ⟨ds, hs, hds⟩

theorem decode_of_isOddLine {s : Text} (h : IsOddLine s) : decode s = .error .lineEndInOctets := by
  have hnot := not_allHex_of_isLine (isLine_of_isOddLine h)
  have hdigits := digits_eq_ok.2 ⟨rfl, isDigits_unmark_iff.2 (.inr (isLine_of_isOddLine h))⟩
  obtain ⟨ds, hs, hodd, -⟩ := h
  have hnone : ofPairs? [] (unmark s) = none := by
    rw [← Option.not_isSome_iff_eq_none, isSome_ofPairs?]
    exact fun hpairs => hnot hpairs.2
  unfold decode
  rw [hdigits, ok_bind, if_neg (by rw [hs, List.length_append, List.length_singleton]; omega), hnone]
  rfl

/-- Octets are read just from the digits that denote them. -/
theorem decode_eq_ok_iff {s : Text} {bs : Octets} : decode s = .ok bs ↔ Denotes (unmark s) bs := by
  have hpairs : ofPairs? [] (unmark s) = some bs ↔ Denotes (unmark s) bs := by simp [ofPairs?_eq_some_iff]
  rw [← hpairs]
  unfold decode
  constructor
  · intro h
    obtain ⟨ds, hds, h⟩ := bind_eq_ok.1 h
    obtain ⟨rfl, -⟩ := digits_eq_ok.1 hds
    split at h
    · cases h
    · cases hpairs? : ofPairs? [] (unmark s) with
      | none =>
        rw [hpairs?] at h
        cases h
      | some cs =>
        rw [hpairs?] at h
        exact congrArg some (Except.ok.inj h)
  · intro h
    obtain ⟨heven, hall⟩ := exists_denotes_iff.1 ⟨bs, hpairs.1 h⟩
    rw [digits_eq_ok.2 ⟨rfl, isDigits_unmark_iff.2 (.inl hall)⟩, ok_bind, if_neg (by omega), h]
    rfl

theorem readsOctets_iff {s : Text} : ReadsOctets s ↔ ¬ IsOddLine s := by
  constructor
  · intro h hodd
    obtain ⟨f, hf, hfamily⟩ := h.refuses fun hs => not_allHex_of_isLine (isLine_of_isOddLine hodd) hs.2
    rw [decode_of_isOddLine hodd] at hf
    obtain rfl := Except.error.inj hf
    cases hfamily
  · intro hodd
    refine ⟨fun heven hall => ?_, fun hnot => ?_⟩
    · obtain ⟨bs, hbs⟩ := exists_denotes_iff.2 ⟨heven, hall⟩
      exact ⟨bs, decode_eq_ok_iff.2 hbs, hbs⟩
    · by_cases hdigits : isDigits (unmark s) = true
      · -- What passes for digits and has an even length is even in its digits, or odd with a line end.
        have hlength : (unmark s).length % 2 = 1 := by
          rcases isDigits_unmark_iff.1 hdigits with hall | ⟨ds, hs, hds⟩
          · exact Nat.mod_two_ne_zero.1 fun heven => hnot ⟨heven, hall⟩
          · have hds' : ds.length % 2 ≠ 1 := fun h => hodd ⟨ds, hs, h, hds⟩
            rw [hs, List.length_append, List.length_singleton]
            omega
        refine ⟨.oddHexDigits s, ?_, rfl⟩
        unfold decode
        rw [digits_eq_ok.2 ⟨rfl, hdigits⟩, ok_bind, if_pos hlength]
      · refine ⟨.badHexDigits s, ?_, rfl⟩
        unfold decode digits
        dsimp only
        rw [if_neg hdigits]
        rfl

theorem decodeQuantity_of_line {s ds : Text} (hs : unmark s = ds ++ [.char '\n']) (h : AllHex ds) :
    decodeQuantity s = if ds = [] then .error .lineEndAsQuantity else .ok (base16 ds) := by
  have hend : ∀ c ∈ ds, c ≠ .char '\n' := by
    rintro c hc rfl
    exact not_mem_of_allHex h (by decide) hc
  unfold decodeQuantity
  rw [digits_eq_ok.2 ⟨rfl, isDigits_unmark_iff.2 (.inr ⟨ds, hs, h⟩)⟩, ok_bind, hs]
  -- A line end alone is told apart by its form, one behind digits is left out where they are counted.
  cases ds with
  | nil => rfl
  | cons d ds =>
    have hfilter : (d :: ds ++ [CodePoint.char '\n']).filter (· ≠ CodePoint.char '\n') = d :: ds := by
      rw [List.filter_append, List.filter_eq_self.2 fun c hc => by simpa using hend c hc]
      simp
    rw [if_neg (List.cons_ne_nil d ds), ← ofHexDigits_eq_base16 h]
    split
    · rename_i hnil
      cases hnil
    · rename_i hone
      cases ds <;> cases hone
    · rw [hfilter]
      rfl

theorem readsQuantity_iff {s : Text} : ReadsQuantity s ↔ ¬ IsLine s := by
  constructor
  · rintro h ⟨ds, hs, hds⟩
    obtain ⟨f, hf, hfamily⟩ := h.refuses (not_allHex_of_isLine ⟨ds, hs, hds⟩)
    rw [decodeQuantity_of_line hs hds] at hf
    split at hf
    · obtain rfl := Except.error.inj hf
      cases hfamily
    · cases hf
  · intro hline
    refine ⟨fun hall => ?_, fun hnot => ⟨.badHexDigits s, ?_, rfl⟩⟩
    · rw [← ofHexDigits_eq_base16 hall]
      exact decodeQuantity_of_digits (digits_eq_ok.2 ⟨rfl, isDigits_unmark_iff.2 (.inl hall)⟩) hall
    · unfold decodeQuantity
      rw [digits_of_not_isDigits hnot hline]
      rfl

theorem decode_eq_lineEndInOctets_iff {s : Text} : decode s = .error .lineEndInOctets ↔ IsOddLine s := by
  refine ⟨fun h => ?_, decode_of_isOddLine⟩
  rw [← escapes_decode, h]
  exact Fault.Stray.escapes ⟨rfl, nofun⟩

theorem decodeQuantity_eq_lineEndAsQuantity_iff {s : Text} :
    decodeQuantity s = .error .lineEndAsQuantity ↔ IsLineEnd s := by
  refine ⟨fun h => ?_, fun h => ?_⟩
  · rw [← escapes_decodeQuantity, h]
    exact Fault.Stray.escapes ⟨rfl, nofun⟩
  · have hs : unmark s = [] ++ [.char '\n'] := h
    exact decodeQuantity_of_line hs nofun

theorem decodeQuantity_eq_ok_iff {s : Text} {n : Int} :
    decodeQuantity s = .ok n ↔ ∃ ds, Spells s ds ∧ n = base16 ds := by
  constructor
  · intro h
    by_cases hline : IsLine s
    · obtain ⟨ds, hs, hds⟩ := hline
      rw [decodeQuantity_of_line hs hds] at h
      split at h
      · cases h
      · rename_i hne
        exact ⟨ds, ⟨hds, .inr ⟨hne, hs⟩⟩, (Except.ok.inj h).symm⟩
    · by_cases hall : AllHex (unmark s)
      · rw [(readsQuantity_iff.2 hline).reads hall] at h
        exact ⟨unmark s, ⟨hall, .inl rfl⟩, (Except.ok.inj h).symm⟩
      · obtain ⟨f, hf, -⟩ := (readsQuantity_iff.2 hline).refuses hall
        rw [hf] at h
        cases h
  · rintro ⟨ds, ⟨hds, rfl | ⟨hne, hs⟩⟩, rfl⟩
    · exact (readsQuantity_iff.2 fun hline => not_allHex_of_isLine hline hds).reads hds
    · rw [decodeQuantity_of_line hs hds, if_neg hne]

/-- Octets are read from an even count of digits and quantities from any, and all other texts are refused as malformed,
but for digits with a line end behind them. Of those an odd count ends in a fault of its own when octets are read; as a
quantity they are read as if the line end were not there, and only where it stands alone that is a fault of its own. -/
theorem reads_iff_not_line (s : Text) :
    (ReadsOctets s ↔ ¬ IsOddLine s) ∧ (ReadsQuantity s ↔ ¬ IsLine s) ∧
      (decode s = .error .lineEndInOctets ↔ IsOddLine s) ∧
      (decodeQuantity s = .error .lineEndAsQuantity ↔ IsLineEnd s) ∧
      ∀ n, decodeQuantity s = .ok n ↔ ∃ ds, Spells s ds ∧ n = base16 ds :=
  ⟨readsOctets_iff, readsQuantity_iff, decode_eq_lineEndInOctets_iff, decodeQuantity_eq_lineEndAsQuantity_iff,
    fun _ => decodeQuantity_eq_ok_iff⟩

/-- A digit and a line end are no octet and no quantity, but neither reader refuses them as such. -/
theorem not_reads_digitLine : ¬ ReadsOctets "1\n" ∧ ¬ ReadsQuantity "1\n" := by
  have hdigit : AllHex "1" := by decide
  exact ⟨fun h => readsOctets_iff.1 h ⟨"1", rfl, rfl, hdigit⟩, fun h => readsQuantity_iff.1 h ⟨"1", rfl, hdigit⟩⟩

theorem unmark_cases (t : Text) :
    unmark t = t ∨ ∃ r, (t = .char '0' :: .char 'x' :: r ∨ t = .char '0' :: .char 'X' :: r) ∧ unmark t = r := by
  unfold unmark
  split
  · rename_i r
    exact .inr ⟨r, .inl rfl, rfl⟩
  · rename_i r
    exact .inr ⟨r, .inr rfl, rfl⟩
  · exact .inl rfl

/-- An even count of digits behind two marks of digits. -/
def IsTwiceMarked (s : Text) : Prop :=
  ∃ ds, (unmark s = .char '0' :: .char 'x' :: ds ∨ unmark s = .char '0' :: .char 'X' :: ds) ∧
    ds.length % 2 = 0 ∧ AllHex ds

theorem not_allHex_marked {t r : Text} (h : t = .char '0' :: .char 'x' :: r ∨ t = .char '0' :: .char 'X' :: r) :
    ¬ AllHex t := by
  intro hall
  rcases h with rfl | rfl
  · exact absurd (hall (.char 'x') (by simp)) (by decide)
  · exact absurd (hall (.char 'X') (by simp)) (by decide)

section
variable [Limits]

/-- Where no run is marked, all there is to read is octets in full, and they may bear a mark of their own. -/
theorem decodeAbbreviated_of_not_mem {s : Text} (h : runMark ∉ s) : decodeAbbreviated s = decode (unmark s) := by
  have hmark : runMark ∉ unmark s := by
    rcases unmark_cases s with hs | ⟨r, hr | hr, hs⟩
    · rwa [hs]
    · rw [hs]
      exact fun hm => h (hr ▸ by simp [hm])
    · rw [hs]
      exact fun hm => h (hr ▸ by simp [hm])
  have hsplit : (unmark s).split runMark = [unmark s] := List.splitOn_eq_singleton hmark
  unfold decodeAbbreviated
  simp only [hsplit]
  rw [if_neg (by simp), expand]
  cases decode (unmark s) <;> rfl

theorem agrees_iff {s : Text} (h : runMark ∉ s) :
    (∀ bs, decodeAbbreviated s = .ok bs ↔ decode s = .ok bs) ↔ ¬ IsTwiceMarked s := by
  simp only [decodeAbbreviated_of_not_mem h, decode_eq_ok_iff]
  constructor
  · rintro hagree ⟨ds, hmarked, hds⟩
    have hunmark : unmark (unmark s) = ds := by rcases hmarked with hs | hs <;> rw [hs] <;> rfl
    obtain ⟨bs, hbs⟩ := exists_denotes_iff.2 hds
    have hplain := (hagree bs).1 (hunmark ▸ hbs)
    exact not_allHex_marked hmarked (exists_denotes_iff.1 ⟨bs, hplain⟩).2
  · intro hnot bs
    rcases unmark_cases (unmark s) with hs | ⟨ds, hmarked, hs⟩
    · rw [hs]
    · -- Behind a second mark nothing is read in full, and so nothing may be read at all.
      rw [hs]
      refine iff_of_false (fun hbs => ?_) fun hbs => ?_
      · exact hnot ⟨ds, hmarked, exists_denotes_iff.1 ⟨bs, hbs⟩⟩
      · exact not_allHex_marked hmarked (exists_denotes_iff.1 ⟨bs, hbs⟩).2

/-- A text in which no run is marked is read as what stands behind its mark would be read in full. That is what the
whole text would be read as, and it is read just if the whole text is, unless there are octets behind two marks. -/
theorem decodeAbbreviated_agrees_iff {s : Text} (h : runMark ∉ s) :
    decodeAbbreviated s = decode (unmark s) ∧
      ((∀ bs, decodeAbbreviated s = .ok bs ↔ decode s = .ok bs) ↔ ¬ IsTwiceMarked s) :=
  ⟨decodeAbbreviated_of_not_mem h, agrees_iff h⟩

end

theorem decodeAbbreviated_agrees_iff_capitals : letI : Limits := .unbounded
    runMark ∉ ("0XAbcD" : Text) ∧ ¬ IsTwiceMarked "0XAbcD" ∧ decode "0XAbcD" = .ok [0xAB, 0xCD] ∧
      decodeAbbreviated "0XAbcD" = .ok [0xAB, 0xCD] := by
  let _ : Limits := .unbounded
  have hmark : runMark ∉ ("0XAbcD" : Text) := by decide
  have honce : ¬ IsTwiceMarked "0XAbcD" := by
    rintro ⟨ds, hs | hs, -⟩ <;> cases hs
  have hread : decode "0XAbcD" = .ok [0xAB, 0xCD] := rfl
  exact ⟨hmark, honce, hread, (((decodeAbbreviated_agrees_iff hmark).2.2 honce) _).2 hread⟩

/-- Behind two marks an octet is read that is refused where octets are read in full. -/
theorem not_agrees_twiceMarked : letI : Limits := .unbounded
    runMark ∉ ("0x0xab" : Text) ∧ decode "0x0xab" = .error (.badHexDigits "0x0xab") ∧
      ¬ ∀ bs, decodeAbbreviated "0x0xab" = .ok bs ↔ decode "0x0xab" = .ok bs := by
  let _ : Limits := .unbounded
  refine ⟨by decide, rfl, fun hagree => ?_⟩
  have hread : decodeAbbreviated "0x0xab" = .ok [0xAB] := rfl
  cases (hagree [0xAB]).1 hread

end CallTrace.Hex
