import CallTrace.Json.Writer
import CallTrace.Proofs.Hex.Digits
import CallTrace.Proofs.Number.Decimal
import CallTrace.Text.Utf

namespace CallTrace

def Text.IsAscii (t : Text) : Prop := ∀ c ∈ t, c.toNat < 0x80

namespace Text

instance (t : Text) : Decidable t.IsAscii := inferInstanceAs (Decidable (∀ c ∈ t, _))

@[simp] theorem isAscii_nil : IsAscii [] := nofun

@[simp] theorem isAscii_append {s t : Text} : IsAscii (s ++ t) ↔ IsAscii s ∧ IsAscii t := List.forall_mem_append

@[simp] theorem isAscii_cons {c : CodePoint} {t : Text} : IsAscii (c :: t) ↔ c.toNat < 0x80 ∧ IsAscii t :=
  List.forall_mem_cons

theorem isAscii_replicate (n : Nat) {c : CodePoint} (h : c.toNat < 0x80) : IsAscii (List.replicate n c) := by
  intro d hd
  rwa [List.eq_of_mem_replicate hd]

theorem isAscii_ofNat (n : Nat) : IsAscii (ofNat n) := by
  obtain ⟨ds, -, hlt, htext, -⟩ := Number.exists_digits n
  intro c hc
  rw [htext] at hc
  obtain ⟨d, hd, rfl⟩ := List.mem_map.1 hc
  have hdigits : ∀ d < 10, (Number.digit d).toNat < 0x80 := by decide
  exact hdigits d (hlt d hd)

theorem isAscii_ofInt (n : Int) : IsAscii (ofInt n) := by
  unfold ofInt
  split
  · exact isAscii_cons.2 ⟨by decide, isAscii_ofNat _⟩
  · exact isAscii_ofNat _

theorem utf8?_of_isAscii {t : Text} (h : t.IsAscii) : t.utf8?.isSome = true := by
  unfold utf8?
  rw [Option.isSome_map]
  unfold chars?
  induction t with
  | nil => rfl
  | cons c t ih =>
    obtain ⟨hc, ht⟩ := isAscii_cons.1 h
    rw [List.mapM_cons]
    cases c with
    | half n => exact absurd hc (by rw [CodePoint.toNat_half, CodePoint.firstSurrogate]; omega)
    | char c =>
      obtain ⟨cs, hcs⟩ := Option.isSome_iff_exists.1 (ih ht)
      rw [hcs]
      rfl

end Text

namespace Number
open Text

theorem lt_of_isHexDigit {c : CodePoint} (h : isHexDigit c = true) : c.toNat < 0x80 := by
  unfold isHexDigit hexDigitValue? at h
  have hwithin : ∀ low high : CodePoint, high.toNat < 0x80 → c.isWithin low high = true → c.toNat < 0x80 := by
    intro low high hhigh hc
    rw [CodePoint.isWithin, Bool.and_eq_true, decide_eq_true_eq, decide_eq_true_eq] at hc
    exact Nat.lt_of_le_of_lt hc.2 hhigh
  split at h
  · rename_i hdigit
    exact hwithin _ _ (by decide) hdigit
  · split at h
    · rename_i hlower
      exact hwithin _ _ (by decide) hlower
    · split at h
      · rename_i hupper
        exact hwithin _ _ (by decide) hupper
      · cases h

theorem isAscii_hexPadded (width n : Nat) : IsAscii (hexPadded width n) :=
  isAscii_append.2 ⟨isAscii_replicate _ (by decide), fun c hc => lt_of_isHexDigit (Hex.allHex_hexDigits n c hc)⟩

end Number

namespace Layout
open Text

theorem isAscii_zeros (n : Nat) : IsAscii (zeros n) := isAscii_replicate n (by decide)

theorem isAscii_positional {ds : Text} (h : IsAscii ds) (lead : Int) : IsAscii (positional ds lead) := by
  have htake : ∀ n, IsAscii (ds.take n) := fun n c hc => h c (List.mem_of_mem_take hc)
  have hdrop : ∀ n, IsAscii (ds.drop n) := fun n c hc => h c (List.mem_of_mem_drop hc)
  unfold positional
  split
  · simp only [isAscii_append]
    exact ⟨⟨by decide, isAscii_zeros _⟩, h⟩
  · simp only [isAscii_append]
    refine ⟨⟨⟨htake _, isAscii_zeros _⟩, by decide⟩, ?_⟩
    split
    · decide
    · exact hdrop _

theorem isAscii_scientific {ds : Text} (h : IsAscii ds) (lead : Int) : IsAscii (scientific ds lead) := by
  unfold scientific
  simp only [isAscii_append]
  refine ⟨⟨⟨⟨fun c hc => h c (List.mem_of_mem_take hc), ?_⟩, ?_⟩, isAscii_zeros _⟩, isAscii_ofNat _⟩
  · split
    · exact isAscii_nil
    · exact isAscii_cons.2 ⟨by decide, fun c hc => h c (List.mem_of_mem_drop hc)⟩
  · split <;> decide

theorem isAscii_signed (negative : Bool) {t : Text} (h : IsAscii t) : IsAscii (signed negative t) := by
  unfold signed
  split
  · exact isAscii_cons.2 ⟨by decide, h⟩
  · exact h

theorem isAscii_render {l : Layout} (hnan : IsAscii l.notANumber) (hinfinity : IsAscii l.infinity)
    (x : Binary64) : IsAscii (l.render x) := by
  cases x with
  | nan => exact hnan
  | infinite negative => exact isAscii_signed negative hinfinity
  | finite negative m e =>
    refine isAscii_signed negative ?_
    unfold magnitude
    dsimp only
    split
    · exact isAscii_positional (isAscii_ofNat _) _
    · exact isAscii_scientific (isAscii_ofNat _) _

end Layout

namespace Json
open Text

theorem isAscii_unitEscape (n : Nat) : IsAscii (unitEscape n) :=
  isAscii_append.2 ⟨by decide, Number.isAscii_hexPadded 4 n⟩

theorem isAscii_escapedPoint (c : CodePoint) : IsAscii (escapedPoint c) := by
  unfold escapedPoint
  split
  · rename_i hmark
    rw [Bool.or_eq_true, decide_eq_true_eq, decide_eq_true_eq] at hmark
    rcases hmark with rfl | rfl <;> decide
  · dsimp only
    repeat' split
    any_goals decide
    · rename_i hplain
      rw [Bool.and_eq_true, decide_eq_true_eq, decide_eq_true_eq] at hplain
      exact isAscii_cons.2 ⟨Nat.lt_trans hplain.2 (by decide), isAscii_nil⟩
    · exact isAscii_unitEscape _
    · exact isAscii_append.2 ⟨isAscii_unitEscape _, isAscii_unitEscape _⟩

theorem isAscii_textLiteral (t : Text) : IsAscii (textLiteral t) := by
  refine isAscii_append.2 ⟨isAscii_cons.2 ⟨by decide, fun c hc => ?_⟩, by decide⟩
  obtain ⟨d, -, hc⟩ := List.mem_flatMap.1 hc
  exact isAscii_escapedPoint d c hc

theorem isAscii_scalarText (j : Json) : IsAscii j.scalarText := by
  cases j with
  | bool b => cases b <;> decide
  | int n => exact isAscii_ofInt n
  | real x => exact Layout.isAscii_render (by decide) (by decide) x
  | text t => exact isAscii_textLiteral t
  | null | list _ | object _ =>
    show IsAscii "null"
    decide

theorem isAscii_newLineOnto (level : Nat) {rest : Text} (h : IsAscii rest) : IsAscii (newLineOnto level rest) :=
  isAscii_cons.2 ⟨by decide, isAscii_append.2 ⟨isAscii_replicate _ (by decide), h⟩⟩

/-- A key and what separates it from its value. -/
theorem isAscii_key (key : Text) {rest : Text} (h : IsAscii rest) :
    IsAscii (textLiteral key ++ (": " ++ rest)) :=
  isAscii_append.2 ⟨isAscii_textLiteral key, isAscii_append.2 ⟨by decide, h⟩⟩

mutual

theorem isAscii_compactOnto (j : Json) {rest : Text} (h : IsAscii rest) : IsAscii (j.compactOnto rest) := by
  match j with
  | .list [] => exact isAscii_append.2 ⟨by decide, h⟩
  | .list (j :: js) =>
    have hend : IsAscii (.char ']' :: rest) := isAscii_cons.2 ⟨by decide, h⟩
    rw [compactOnto]
    exact isAscii_cons.2 ⟨by decide, isAscii_compactOnto j (isAscii_compactItemsOnto js hend)⟩
  | .object [] => exact isAscii_append.2 ⟨by decide, h⟩
  | .object ((k, v) :: fs) =>
    have hend : IsAscii (.char '\x7d' :: rest) := isAscii_cons.2 ⟨by decide, h⟩
    rw [compactOnto]
    exact isAscii_append.2 ⟨by decide,
      isAscii_key k (isAscii_compactOnto v (isAscii_compactFieldsOnto fs hend))⟩
  | .null | .bool _ | .int _ | .real _ | .text _ => exact isAscii_append.2 ⟨isAscii_scalarText _, h⟩

theorem isAscii_compactItemsOnto (js : List Json) {rest : Text} (h : IsAscii rest) :
    IsAscii (compactItemsOnto js rest) := by
  match js with
  | [] => exact h
  | j :: js =>
    rw [compactItemsOnto]
    exact isAscii_append.2 ⟨by decide, isAscii_compactOnto j (isAscii_compactItemsOnto js h)⟩

theorem isAscii_compactFieldsOnto (fs : List (Text × Json)) {rest : Text} (h : IsAscii rest) :
    IsAscii (compactFieldsOnto fs rest) := by
  match fs with
  | [] => exact h
  | (k, v) :: fs =>
    rw [compactFieldsOnto]
    exact isAscii_append.2 ⟨by decide,
      isAscii_key k (isAscii_compactOnto v (isAscii_compactFieldsOnto fs h))⟩

end

mutual

theorem isAscii_indentedOnto (level : Nat) (j : Json) {rest : Text} (h : IsAscii rest) :
    IsAscii (j.indentedOnto level rest) := by
  match j with
  | .list [] => exact isAscii_append.2 ⟨by decide, h⟩
  | .list (j :: js) =>
    have hend : IsAscii (newLineOnto level (.char ']' :: rest)) :=
      isAscii_newLineOnto level (isAscii_cons.2 ⟨by decide, h⟩)
    rw [indentedOnto]
    exact isAscii_cons.2 ⟨by decide, isAscii_newLineOnto _
      (isAscii_indentedOnto _ j (isAscii_indentedItemsOnto _ js hend))⟩
  | .object [] => exact isAscii_append.2 ⟨by decide, h⟩
  | .object ((k, v) :: fs) =>
    have hend : IsAscii (newLineOnto level (.char '\x7d' :: rest)) :=
      isAscii_newLineOnto level (isAscii_cons.2 ⟨by decide, h⟩)
    rw [indentedOnto]
    exact isAscii_cons.2 ⟨by decide, isAscii_newLineOnto _
      (isAscii_key k (isAscii_indentedOnto _ v (isAscii_indentedFieldsOnto _ fs hend)))⟩
  | .null | .bool _ | .int _ | .real _ | .text _ => exact isAscii_append.2 ⟨isAscii_scalarText _, h⟩

theorem isAscii_indentedItemsOnto (level : Nat) (js : List Json) {rest : Text} (h : IsAscii rest) :
    IsAscii (indentedItemsOnto level js rest) := by
  match js with
  | [] => exact h
  | j :: js =>
    rw [indentedItemsOnto]
    exact isAscii_cons.2 ⟨by decide, isAscii_newLineOnto _
      (isAscii_indentedOnto _ j (isAscii_indentedItemsOnto _ js h))⟩

theorem isAscii_indentedFieldsOnto (level : Nat) (fs : List (Text × Json)) {rest : Text} (h : IsAscii rest) :
    IsAscii (indentedFieldsOnto level fs rest) := by
  match fs with
  | [] => exact h
  | (k, v) :: fs =>
    rw [indentedFieldsOnto]
    exact isAscii_cons.2 ⟨by decide, isAscii_newLineOnto _
      (isAscii_key k (isAscii_indentedOnto _ v (isAscii_indentedFieldsOnto _ fs h)))⟩

end

theorem isAscii_dump (pretty : Bool) (j : Json) : IsAscii (j.dump pretty) := by
  unfold dump
  split
  · exact isAscii_indentedOnto 0 j isAscii_nil
  · exact isAscii_compactOnto j isAscii_nil

end Json

end CallTrace
