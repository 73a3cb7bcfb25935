import CallTrace.Json.Reader
import CallTrace.Proofs.Attempt
import CallTrace.Text.Blank

namespace CallTrace
open Attempt

namespace Text

/-- What is true of each code point that counts as white space, looked at one by one. -/
theorem forall_isBlank {p : CodePoint → Prop} (h : ∀ n ∈ blankPoints, p (.ofNat n)) {c : CodePoint}
    (hc : isBlank c = true) : p c := by
  rw [← CodePoint.ofNat_toNat c]
  exact h c.toNat (List.contains_iff_mem.1 hc)

/-- The octets that count as white space, one by one. -/
theorem blankOctet_cases {b : UInt8} (hb : isBlankOctet b = true) :
    b = 0x09 ∨ b = 0x0A ∨ b = 0x0B ∨ b = 0x0C ∨ b = 0x0D ∨ b = 0x20 := by
  have hall : ∀ n < 256, isBlankOctet (.ofNat n) = true → UInt8.ofNat n = 0x09 ∨ UInt8.ofNat n = 0x0A ∨
      UInt8.ofNat n = 0x0B ∨ UInt8.ofNat n = 0x0C ∨ UInt8.ofNat n = 0x0D ∨ UInt8.ofNat n = 0x20 := by
    decide +kernel
  have hcases := hall b.toNat b.toNat_lt
  rw [UInt8.ofNat_toNat] at hcases
  exact hcases hb

theorem utf8Points_of_ascii {bs : Octets} (h : ∀ b ∈ bs, b < 0x80) (surrogates : Surrogates) :
    utf8Points surrogates .start bs = bs.map fun b => some b.toNat := by
  induction bs with
  | nil => rfl
  | cons b bs ih =>
    obtain ⟨hb, hbs⟩ := List.forall_mem_cons.1 h
    rw [utf8Points, if_pos hb, ih hbs, List.map_cons]

theorem ofUtf8?_of_ascii {bs : Octets} (h : ∀ b ∈ bs, b < 0x80) :
    ofUtf8? bs = some (bs.map fun b => .ofNat b.toNat) := by
  have hpoints : (bs.map fun b => some b.toNat).mapM id = some (bs.map UInt8.toNat) := by
    induction bs with
    | nil => rfl
    | cons b bs ih => simp [ih (List.forall_mem_cons.1 h).2]
  rw [ofUtf8?, utf8Points_of_ascii h, hpoints, Option.map_some, List.map_map]
  rfl

/-- Octets that are white space have no mark of an encoding in front and no zero among the first ones. -/
theorem decodeAny?_eq_ofUtf8?_of_blank {bs : Octets} (h : ∀ b ∈ bs, isBlankOctet b = true) :
    decodeAny? bs = ofUtf8? bs := by
  match bs, h with
  | [], _ => rfl
  | [a], h => rcases blankOctet_cases (h a (by simp)) with rfl | rfl | rfl | rfl | rfl | rfl <;> rfl
  | [a, b], h =>
    rcases blankOctet_cases (h a (by simp)) with rfl | rfl | rfl | rfl | rfl | rfl <;>
      rcases blankOctet_cases (h b (by simp)) with rfl | rfl | rfl | rfl | rfl | rfl <;> rfl
  | [a, b, c], h => rcases blankOctet_cases (h a (by simp)) with rfl | rfl | rfl | rfl | rfl | rfl <;> rfl
  | a :: b :: c :: d :: bs, h =>
    rcases blankOctet_cases (h a (by simp)) with rfl | rfl | rfl | rfl | rfl | rfl <;>
      rcases blankOctet_cases (h b (by simp)) with rfl | rfl | rfl | rfl | rfl | rfl <;> rfl

theorem decodeAny?_of_blank {bs : Octets} (h : ∀ b ∈ bs, isBlankOctet b = true) :
    decodeAny? bs = some (bs.map fun b => .ofNat b.toNat) := by
  have hascii : ∀ b ∈ bs, b < 0x80 := fun b hb => by
    rcases blankOctet_cases (h b hb) with rfl | rfl | rfl | rfl | rfl | rfl <;> decide +kernel
  rw [decodeAny?_eq_ofUtf8?_of_blank h, ofUtf8?_of_ascii hascii]

end Text

namespace Json

theorem punctuation?_of_isBlank {c : CodePoint} (h : Text.isBlank c = true) : punctuation? c = none :=
  Text.forall_isBlank (p := fun c => punctuation? c = none) (by decide) h

/-- A word that begins with white space is no number. -/
theorem number_of_isBlank {c : CodePoint} (h : Text.isBlank c = true) (t : Text) :
    number (c :: t) = .error .malformed := by
  obtain ⟨hsign, hdigit, hpoint, hsmall, hcapital⟩ := Text.forall_isBlank
    (p := fun c => c ≠ .char '-' ∧ c.isDigit = false ∧ c ≠ .char '.' ∧ c ≠ .char 'e' ∧ c ≠ .char 'E') (by decide) h
  have hwhole : isWhole (Number.parts (c :: t)).1 = false := by
    simp [Number.parts, isWhole, allDigits, hpoint, hsmall, hcapital, hdigit]
  unfold number
  split
  rename_i negative body hbody
  split at hbody
  · rename_i heq
    exact absurd (List.cons.inj heq).1 hsign
  · cases hbody
    simp [hwhole]

/-- A word that begins with white space is no name and no number. -/
theorem word_of_isBlank {c : CodePoint} (h : Text.isBlank c = true) (t : Text) : word (c :: t) = .error .malformed := by
  have hnone : Text.lookup (c :: t) names = none := by
    have hnames : ∀ e ∈ names, ∀ d ∈ e.1.head?, Text.isBlank d = false := by decide
    refine List.lookup_eq_none_iff.2 fun e he => ?_
    rw [bne_iff_ne]
    intro heq
    have hd := hnames e he c (by rw [← heq]; rfl)
    rw [h] at hd
    cases hd
  rw [word, hnone]
  exact number_of_isBlank h t

/-- Inside of a word of white space a scan can only go wrong. -/
theorem scan_word_of_blank {w t : Text} (hw : ∀ c ∈ w, Text.isBlank c = true) (hne : w ≠ [])
    (ht : ∀ c ∈ t, Text.isBlank c = true) (done : List Token) : ∃ f, scan done (.word w) t = .error f := by
  have hword : ∀ w : Text, (∀ c ∈ w, Text.isBlank c = true) → w ≠ [] → word w.reverse = .error .malformed := by
    intro w hw hne
    cases hreverse : w.reverse with
    | nil => exact absurd (List.reverse_eq_nil_iff.1 hreverse) hne
    | cons c u => exact word_of_isBlank (hw c (List.mem_reverse.1 (hreverse ▸ List.mem_cons_self))) u
  induction t generalizing w with
  | nil => exact ⟨_, by rw [scan, hword w hw hne]; rfl⟩
  | cons c t ih =>
    obtain ⟨hc, ht⟩ := List.forall_mem_cons.1 ht
    rw [scan]
    split
    · exact ⟨_, by rw [hword w hw hne]⟩
    · exact ih (List.forall_mem_cons.2 ⟨hc, hw⟩) (List.cons_ne_nil c w) ht

theorem scan_of_blank {t : Text} (h : ∀ c ∈ t, Text.isBlank c = true) :
    scan [] .outside t = .ok [] ∨ ∃ f, scan [] .outside t = .error f := by
  induction t with
  | nil => exact .inl rfl
  | cons c t ih =>
    obtain ⟨hc, ht⟩ := List.forall_mem_cons.1 h
    have hquote : c ≠ .char '"' := Text.forall_isBlank (p := fun c => c ≠ .char '"') (by decide) hc
    rw [scan, between]
    by_cases hspace : isSpace c = true
    · rw [if_pos hspace]
      exact ih ht
    · rw [if_neg hspace, if_neg hquote, punctuation?_of_isBlank hc]
      exact .inr (scan_word_of_blank (by simpa using hc) (List.cons_ne_nil c []) ht [])

theorem read_of_allBlank {s : Text} (h : Text.allBlank s = true) : ∃ f, read s = .error f := by
  unfold read tokens
  rcases scan_of_blank (List.all_eq_true.1 h) with htokens | ⟨f, hf⟩
  · exact ⟨.malformed, by rw [htokens]; rfl⟩
  · exact ⟨f, by rw [hf]; rfl⟩

theorem readOctets_of_blank {bs : Octets} (h : bs.all Text.isBlankOctet = true) : ∃ f, readOctets bs = .error f := by
  have hblank := List.all_eq_true.1 h
  rw [readOctets, Text.decodeAny?_of_blank hblank]
  refine read_of_allBlank (List.all_eq_true.2 fun c hc => ?_)
  obtain ⟨b, hb, rfl⟩ := List.mem_map.1 hc
  rcases Text.blankOctet_cases (hblank b hb) with rfl | rfl | rfl | rfl | rfl | rfl <;> decide +kernel

end Json

end CallTrace
