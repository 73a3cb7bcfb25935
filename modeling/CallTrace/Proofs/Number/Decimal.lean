import CallTrace.Number.Decimal
import CallTrace.Number.Numeral

namespace CallTrace

namespace Text

theorem exists_isDigit_of_mem_ofNat {n : Nat} {c : CodePoint} (h : c ∈ ofNat n) :
    ∃ d : Char, c = .char d ∧ d.isDigit := by
  obtain ⟨d, hd, rfl⟩ := List.mem_map.1 h
  exact ⟨d, rfl, Nat.isDigit_of_mem_toDigits (by decide) (by decide) hd⟩

/-- Decimal digits and a sign are all that an integer is written with. -/
theorem exists_char_of_mem_ofInt {n : Int} {c : CodePoint} (h : c ∈ ofInt n) :
    ∃ d : Char, c = .char d ∧ (d = '-' ∨ d.isDigit) := by
  have hnat : c ∈ ofNat n.natAbs → ∃ d : Char, c = .char d ∧ (d = '-' ∨ d.isDigit) := fun h => by
    obtain ⟨d, hc, hd⟩ := exists_isDigit_of_mem_ofNat h
    exact ⟨d, hc, .inr hd⟩
  unfold ofInt at h
  split at h
  · rcases List.mem_cons.1 h with rfl | h
    · exact ⟨'-', rfl, .inl rfl⟩
    · exact hnat h
  · exact hnat h

theorem not_mem_ofInt {d : Char} (hsign : d ≠ '-') (hdigit : d.isDigit = false) (n : Int) : .char d ∉ ofInt n := by
  intro h
  obtain ⟨e, he, hsort⟩ := exists_char_of_mem_ofInt h
  obtain rfl := CodePoint.char.inj he
  rcases hsort with rfl | hd
  · exact hsign rfl
  · rw [hdigit] at hd
    cases hd

theorem ofNat_injective {m n : Nat} (h : ofNat m = ofNat n) : m = n := by
  have hdigits := congrArg (fun ds => Nat.ofDigitChars 10 ds 0) (ofChars_injective h)
  simpa using hdigits

theorem ofInt_injective {m n : Int} (h : ofInt m = ofInt n) : m = n := by
  -- A sign is no digit, so one text has it just if the other one does.
  have hsign : ∀ k l : Nat, .char '-' :: ofNat k ≠ ofNat l := fun k l he => by
    obtain ⟨d, hd, hdigit⟩ := exists_isDigit_of_mem_ofNat (he ▸ List.mem_cons_self)
    obtain rfl := CodePoint.char.inj hd
    cases hdigit
  unfold ofInt at h
  split at h <;> split at h
  · have habs := ofNat_injective (List.cons.inj h).2
    omega
  · exact absurd h (hsign _ _)
  · exact absurd h.symm (hsign _ _)
  · have habs := ofNat_injective h
    omega

end Text

namespace Number

def digit (d : Nat) : CodePoint := .char d.digitChar

theorem digitValue?_digit : ∀ d < 10, Text.digitValue? (digit d) = some d := by decide +kernel

theorem digit_ne_underscore : ∀ d < 10, digit d ≠ .char '_' := by decide

theorem isBlank_digit : ∀ d < 10, isBlank (digit d) = false := by decide

theorem splitSign_digit : ∀ d < 10, ∀ t : Text, splitSign (digit d :: t) = (false, digit d :: t) := by
  intro d hd t
  unfold splitSign
  split
  · rename_i t' h
    exact absurd (List.cons.inj h).1 ((by decide : ∀ d < 10, digit d ≠ .char '-') d hd)
  · rename_i t' h
    exact absurd (List.cons.inj h).1 ((by decide : ∀ d < 10, digit d ≠ .char '+') d hd)
  · rfl

theorem tenPow_le {m n : Nat} (h : m ≤ n) : tenPow m ≤ tenPow n := Nat.pow_le_pow_right (by decide) h

theorem tenPow_succ (n : Nat) : tenPow (n + 1) = tenPow n * 10 := rfl

theorem isLengthy_eq_false {n : Int} : isLengthy n = false ↔ n.natAbs < tenPow maxDigits := by
  unfold isLengthy
  rw [decide_eq_false_iff_not, Nat.not_le]

theorem withSign_of_neg {n : Int} (h : n < 0) : withSign true n.natAbs = n := by
  simp only [withSign, if_true, Int.ofNat_eq_natCast]
  omega

theorem withSign_of_nonneg {n : Int} (h : 0 ≤ n) : withSign false n.natAbs = n := by
  simp only [withSign, Bool.false_eq_true, if_false, Int.ofNat_eq_natCast]
  omega

theorem natAbs_withSign (negative : Bool) (n : Nat) : (withSign negative n).natAbs = n := by
  cases negative <;> simp [withSign]

theorem ofDigits_append (ds : List Nat) (d : Nat) : ofDigits (ds ++ [d]) = ofDigits ds * 10 + d := by
  unfold ofDigits
  rw [List.foldl_append]
  rfl

/-- The decimal digits of a number, as numbers. -/
theorem exists_digits (n : Nat) : ∃ ds : List Nat, ds ≠ [] ∧ (∀ d ∈ ds, d < 10) ∧
    Text.ofNat n = ds.map digit ∧ ofDigits ds = n := by
  induction n using Nat.strongRecOn with
  | ind n ih =>
    unfold Text.ofNat Text.ofChars
    rw [Nat.toDigits_eq_if (by omega)]
    by_cases h : n < 10
    · rw [if_pos h]
      exact ⟨[n], by simp, by simpa using h, rfl, by simp [ofDigits]⟩
    · obtain ⟨ds, -, hlt, htext, hvalue⟩ := ih (n / 10) (by omega)
      unfold Text.ofNat Text.ofChars at htext
      rw [if_neg h, List.map_append, htext]
      refine ⟨ds ++ [n % 10], by simp, ?_, by simp [digit], ?_⟩
      · rw [List.forall_mem_append]
        exact ⟨hlt, List.forall_mem_singleton.2 (Nat.mod_lt n (by omega))⟩
      · rw [ofDigits_append, hvalue]
        omega

theorem digitRun?_digits {ds : List Nat} (hne : ds ≠ []) (hlt : ∀ d ∈ ds, d < 10) :
    digitRun? (ds.map digit) = some ds := by
  induction ds with
  | nil => exact absurd rfl hne
  | cons d ds ih =>
    obtain ⟨hd, hlt⟩ := List.forall_mem_cons.1 hlt
    cases ds with
    | nil =>
      rw [List.map_singleton, digitRun?, digitValue?_digit d hd]
      rfl
    | cons e ds =>
      have hrest := ih (List.cons_ne_nil e ds) hlt
      have he : digit e ≠ .char '_' := digit_ne_underscore e (hlt e List.mem_cons_self)
      have hmark : ∀ t, (e :: ds).map digit = .char '_' :: t → False := fun t h => he (List.cons.inj h).1
      rw [List.map_cons, digitRun?.eq_4 _ _ (by simp) hmark, digitValue?_digit d hd, hrest]
      rfl

theorem trimBy_eq_self {α : Type} {p : α → Bool} {xs : List α} (h : ∀ x ∈ xs, p x = false) :
    Text.trimBy p xs = xs := by
  have hdrop : ∀ ys : List α, (∀ y ∈ ys, p y = false) → ys.dropWhile p = ys := by
    intro ys hys
    cases ys with
    | nil => rfl
    | cons y ys => rw [List.dropWhile_cons, hys y List.mem_cons_self, if_neg (by decide)]
  unfold Text.trimBy
  rw [hdrop xs h, hdrop xs.reverse fun x hx => h x (List.mem_reverse.1 hx), List.reverse_reverse]

theorem digitRun?_lt {t : Text} {ds : List Nat} (h : digitRun? t = some ds) : ∀ d ∈ ds, d < 10 := by
  fun_induction digitRun? t generalizing ds with
  | case1 => cases h
  | case2 c =>
    obtain ⟨d, hd, rfl⟩ := Option.map_eq_some_iff.1 h
    exact List.forall_mem_singleton.2 (Text.digitValue?_lt hd)
  | case3 c t ih =>
    obtain ⟨d, hd, h⟩ := Option.bind_eq_some_iff.1 h
    obtain ⟨es, hes, h⟩ := Option.bind_eq_some_iff.1 h
    obtain rfl := Option.some.inj h
    exact List.forall_mem_cons.2 ⟨Text.digitValue?_lt hd, ih hes⟩
  | case4 c t _ _ ih =>
    obtain ⟨d, hd, h⟩ := Option.bind_eq_some_iff.1 h
    obtain ⟨es, hes, h⟩ := Option.bind_eq_some_iff.1 h
    obtain rfl := Option.some.inj h
    exact List.forall_mem_cons.2 ⟨Text.digitValue?_lt hd, ih hes⟩

theorem ofDigits_lt {ds : List Nat} (h : ∀ d ∈ ds, d < 10) : ofDigits ds < tenPow ds.length := by
  -- A number grows at the end of its digits, so the induction takes the last one off.
  suffices hrev : ∀ es : List Nat, (∀ d ∈ es, d < 10) → ofDigits es.reverse < tenPow es.length by
    have hds := hrev ds.reverse fun d hd => h d (List.mem_reverse.1 hd)
    rwa [List.reverse_reverse, List.length_reverse] at hds
  intro es hes
  induction es with
  | nil => decide
  | cons d es ih =>
    obtain ⟨hd, hes⟩ := List.forall_mem_cons.1 hes
    have hrest := ih hes
    rw [List.reverse_cons, ofDigits_append, List.length_cons, tenPow_succ]
    omega

/-- What is read has few enough digits to be written. -/
theorem not_isLengthy_of_integer? {t : Text} {n : Int} (h : integer? t = some n) : isLengthy n = false := by
  unfold integer? at h
  dsimp only at h
  obtain ⟨ds, hds, h⟩ := Option.bind_eq_some_iff.1 h
  split at h
  · rename_i hlength
    obtain rfl := Option.some.inj h
    rw [isLengthy_eq_false, natAbs_withSign]
    exact Nat.lt_of_lt_of_le (ofDigits_lt (digitRun?_lt hds)) (tenPow_le hlength)
  · cases h

theorem length_digits_le {n k : Nat} {ds : List Nat} (hk : 0 < k) (hn : n < tenPow k)
    (htext : Text.ofNat n = ds.map digit) : ds.length ≤ k := by
  have hlength := congrArg List.length htext
  unfold Text.ofNat Text.ofChars at hlength
  rw [List.length_map, List.length_map] at hlength
  rw [← hlength]
  exact (Nat.length_toDigits_le_iff (by decide) hk).2 hn

/-- An integer with few enough digits is read from what is written of it. -/
theorem integer?_ofInt {n : Int} (h : isLengthy n = false) : integer? (Text.ofInt n) = some n := by
  obtain ⟨ds, hne, hlt, htext, hvalue⟩ := exists_digits n.natAbs
  have hlength : ds.length ≤ maxDigits := length_digits_le (by decide) (isLengthy_eq_false.1 h) htext
  have hblank : ∀ c ∈ ds.map digit, isBlank c = false := by
    intro c hc
    obtain ⟨d, hd, rfl⟩ := List.mem_map.1 hc
    exact isBlank_digit d (hlt d hd)
  have hread : ∀ negative : Bool, (do
      let ds ← digitRun? (ds.map digit)
      if ds.length ≤ maxDigits then some (withSign negative (ofDigits ds)) else none) =
        some (withSign negative n.natAbs) := by
    intro negative
    rw [digitRun?_digits hne hlt, ← hvalue]
    exact if_pos hlength
  unfold integer? Text.ofInt
  by_cases hn : n < 0
  · have hall : ∀ c ∈ CodePoint.char '-' :: ds.map digit, isBlank c = false :=
      List.forall_mem_cons.2 ⟨by decide, hblank⟩
    rw [if_pos hn, htext, trimBy_eq_self hall]
    exact (hread true).trans (congrArg some (withSign_of_neg hn))
  · obtain ⟨d, es, rfl⟩ := List.exists_cons_of_ne_nil hne
    rw [if_neg hn, htext, trimBy_eq_self hblank, List.map_cons, splitSign_digit d (hlt d List.mem_cons_self)]
    exact (hread false).trans (congrArg some (withSign_of_nonneg (Int.not_lt.1 hn)))

end Number

end CallTrace
