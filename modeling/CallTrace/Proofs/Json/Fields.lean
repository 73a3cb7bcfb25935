import CallTrace.Json.Access
import CallTrace.Proofs.Attempt

namespace CallTrace
open Attempt

theorem Text.ofString_injective {s t : String} (h : ofString s = ofString t) : s = t :=
  String.toList_inj.1 (ofChars_injective h)

/-- Two keys that are written out are compared as the words that they are. -/
@[simp] theorem Text.ofString_inj {s t : String} : ofString s = ofString t ↔ s = t :=
  ⟨ofString_injective, congrArg _⟩

namespace Fields

def ofOption (key : Text) (value? : Option Json) : Fields := (value?.map fun value => (key, value)).toList

@[simp] theorem value?_nil (key : Text) : value? [] key = none := rfl

@[simp] theorem value?_cons (k : Text) (v : Json) (fields : Fields) (key : Text) :
    value? ((k, v) :: fields) key = if key = k then some v else fields.value? key := by
  unfold value?
  rw [List.lookup_cons]
  by_cases h : key = k
  · simp [h]
  · simp [h, beq_false_of_ne h]

@[simp] theorem value?_append (fields more : Fields) (key : Text) :
    value? (fields ++ more) key = (fields.value? key).or (more.value? key) := List.lookup_append

@[simp] theorem value?_ofOption (k : Text) (v? : Option Json) (key : Text) :
    value? (ofOption k v?) key = if key = k then v? else none := by
  cases v? with
  | none => simp [ofOption]
  | some v => simp [ofOption]

theorem value?_eq_none_iff {fields : Fields} {key : Text} : fields.value? key = none ↔ key ∉ fields.keys := by
  unfold value? keys
  rw [List.lookup_eq_none_iff, List.mem_map]
  constructor
  · rintro h ⟨f, hf, rfl⟩
    exact absurd rfl (bne_iff_ne.1 (h f hf))
  · exact fun h f hf => bne_iff_ne.2 fun he => h ⟨f, hf, he.symm⟩

theorem put_put (key : Text) (v w : Json) (fields : Fields) :
    put key w (put key v fields) = put key w fields := by
  induction fields with
  | nil => simp [put]
  | cons f fields ih =>
    obtain ⟨k, x⟩ := f
    by_cases h : k = key
    · simp [put, h]
    · simp [put, h, ih]

/-- A field that is set to the value that it has stays as it is. -/
theorem put_of_value? {key : Text} {v : Json} {fields : Fields} (h : fields.value? key = some v) :
    put key v fields = fields := by
  induction fields with
  | nil => cases h
  | cons f fields ih =>
    obtain ⟨k, x⟩ := f
    rw [value?_cons] at h
    rw [put]
    split at h
    · rename_i hk
      rw [if_pos hk.symm, ← Option.some.inj h, hk]
    · rename_i hk
      rw [if_neg (Ne.symm hk), ih h]

/-- Leaving out fields by their keys leaves the others as they are. -/
theorem value?_filter {p : Text → Bool} {key : Text} (h : p key = true) (fields : Fields) :
    value? (fields.filter fun f => p f.1) key = fields.value? key := by
  induction fields with
  | nil => rfl
  | cons f fields ih =>
    obtain ⟨k, v⟩ := f
    rw [List.filter_cons, value?_cons, ← ih]
    by_cases hk : key = k
    · rw [if_pos (hk ▸ h), value?_cons]
    · rw [if_neg hk]
      split
      · rw [value?_cons, if_neg hk]
      · rfl

end Fields

def readOption {α : Type} (read : Json → Except Fault α) : Option Json → Except Fault (Option α)
  | none => .ok none
  | some j => some <$> read j

theorem readOption_eq_none {α : Type} {read : Json → Except Fault α} {j? : Option Json}
    (h : readOption read j? = .ok none) : j? = none := by
  cases j? with
  | none => rfl
  | some j =>
    obtain ⟨b, -, hsome⟩ := map_eq_ok.1 h
    cases hsome

theorem readOption_eq_some {α : Type} {read : Json → Except Fault α} {j? : Option Json} {a : α}
    (h : readOption read j? = .ok (some a)) : ∃ j, j? = some j ∧ read j = .ok a := by
  cases j? with
  | none => cases h
  | some j =>
    obtain ⟨b, hb, hsome⟩ := map_eq_ok.1 h
    exact ⟨j, rfl, hb.trans (congrArg _ (Option.some.inj hsome))⟩

/-- Two fields that may be left out and say the same are both left out, or both there to say it. -/
theorem readOption_rel {α : Type} {read : Json → Except Fault α} {j? k? : Option Json} {a? : Option α}
    (hj : readOption read j? = .ok a?) (hk : readOption read k? = .ok a?) :
    Option.Rel (fun j k => ∃ a, read j = .ok a ∧ read k = .ok a) j? k? := by
  cases a? with
  | none =>
    obtain rfl := readOption_eq_none hj
    obtain rfl := readOption_eq_none hk
    exact .none
  | some a =>
    obtain ⟨j, rfl, hreadJ⟩ := readOption_eq_some hj
    obtain ⟨k, rfl, hreadK⟩ := readOption_eq_some hk
    exact .some ⟨a, hreadJ, hreadK⟩

namespace Json

@[simp] theorem fields_object (fs : Fields) : (object fs).fields = .ok fs := rfl

theorem fields_eq_ok {j : Json} {fs : Fields} : j.fields = .ok fs ↔ j = .object fs := by
  cases j <;> simp [fields]

@[simp] theorem fieldOr_object (fields : Fields) (key : Text) (default : Json) :
    (object fields).fieldOr key default = .ok ((fields.value? key).getD default) := rfl

@[simp] theorem mentions_object (fields : Fields) (key : Text) :
    (object fields).mentions key = .ok (fields.value? key).isSome := rfl

end Json

end CallTrace
