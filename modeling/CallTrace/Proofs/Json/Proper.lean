import CallTrace.Json.Access
import CallTrace.Json.Reader
import CallTrace.Proofs.Attempt

namespace CallTrace
open Attempt

namespace Fields

theorem keys_put (fields : Fields) (key : Text) (value : Json) :
    (fields.put key value).keys = if key ∈ fields.keys then fields.keys else fields.keys ++ [key] := by
  induction fields with
  | nil => rfl
  | cons f fields ih =>
    obtain ⟨k, v⟩ := f
    show keys (put key value ((k, v) :: fields)) =
      if key ∈ k :: keys fields then k :: keys fields else k :: keys fields ++ [key]
    rw [put]
    split
    · rename_i h
      rw [if_pos (h ▸ List.mem_cons_self), h]
      rfl
    · rename_i h
      show k :: keys (put key value fields) = _
      rw [ih]
      by_cases hmem : key ∈ keys fields
      · rw [if_pos hmem, if_pos (List.mem_cons_of_mem k hmem)]
      · rw [if_neg hmem, if_neg fun hk => (List.mem_cons.1 hk).elim (fun he => h he.symm) hmem, List.cons_append]

theorem nodup_keys_put {fields : Fields} (h : fields.keys.Nodup) (key : Text) (value : Json) :
    (fields.put key value).keys.Nodup := by
  rw [keys_put]
  split
  · exact h
  · rename_i hkey
    refine List.nodup_append.2 ⟨h, List.pairwise_singleton _ key, ?_⟩
    rintro k hk _ hl rfl
    exact hkey (List.mem_singleton.1 hl ▸ hk)

theorem mem_put {fields : Fields} {key : Text} {value : Json} {f : Text × Json}
    (h : f ∈ fields.put key value) : f = (key, value) ∨ f ∈ fields := by
  induction fields with
  | nil => exact .inl (List.mem_singleton.1 h)
  | cons e fields ih =>
    obtain ⟨k, v⟩ := e
    rw [put] at h
    split at h
    · rcases List.mem_cons.1 h with h | h
      · exact .inl h
      · exact .inr (List.mem_cons_of_mem _ h)
    · rcases List.mem_cons.1 h with h | h
      · exact .inr (h ▸ List.mem_cons_self)
      · exact (ih h).imp_right (List.mem_cons_of_mem _)

end Fields

namespace Json

mutual

def isProper : Json → Bool
  | .list items => allProper items
  | .object fields => decide (Fields.keys fields).Nodup && allFieldsProper fields
  | _ => true

def allProper : List Json → Bool
  | [] => true
  | j :: js => isProper j && allProper js

def allFieldsProper : List (Text × Json) → Bool
  | [] => true
  | f :: fs => isProper f.2 && allFieldsProper fs

end

theorem allProper_iff {js : List Json} : allProper js = true ↔ ∀ j ∈ js, j.isProper = true := by
  induction js with
  | nil => simp [allProper]
  | cons j js ih => rw [allProper, Bool.and_eq_true, ih, List.forall_mem_cons]

theorem allFieldsProper_iff {fields : Fields} :
    allFieldsProper fields = true ↔ ∀ f ∈ fields, f.2.isProper = true := by
  induction fields with
  | nil => simp [allFieldsProper]
  | cons f fields ih => rw [allFieldsProper, Bool.and_eq_true, ih, List.forall_mem_cons]

theorem isProper_object {fields : Fields} : (object fields).isProper = true ↔
    fields.keys.Nodup ∧ ∀ f ∈ fields, f.2.isProper = true := by
  rw [isProper, Bool.and_eq_true, decide_eq_true_eq, allFieldsProper_iff]

theorem isProper_list {items : List Json} : (list items).isProper = true ↔ ∀ j ∈ items, j.isProper = true := by
  rw [isProper, allProper_iff]

theorem isProper_ofPairs {pairs : Fields} (h : ∀ f ∈ pairs, f.2.isProper = true) :
    (object (Fields.ofPairs pairs)).isProper = true := by
  refine List.foldlRecOn pairs _ (motive := fun fields => (object fields).isProper = true) rfl ?_
  intro fields hfields f hf
  obtain ⟨hkeys, hvalues⟩ := isProper_object.1 hfields
  refine isProper_object.2 ⟨Fields.nodup_keys_put hkeys f.1 f.2, fun e he => ?_⟩
  rcases Fields.mem_put he with rfl | he
  · exact h f hf
  · exact hvalues e he

theorem isProper_of_field {j v : Json} {key : Text} (hj : j.isProper = true) (h : j.field key = .ok v) :
    v.isProper = true := by
  cases j with
  | object fields =>
    rw [field] at h
    split at h
    · rename_i value hvalue
      obtain rfl := Except.ok.inj h
      obtain ⟨before, after, hfields, -⟩ := List.lookup_eq_some_iff.1 hvalue
      exact (isProper_object.1 hj).2 (key, value) (by simp [hfields])
    · cases h
  | _ => cases h

end Json

end CallTrace
