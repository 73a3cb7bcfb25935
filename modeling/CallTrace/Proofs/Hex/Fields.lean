import CallTrace.Hex.Fields
import CallTrace.Proofs.Hex.Digits
import CallTrace.Proofs.Json.Fields

namespace CallTrace
open Attempt

def slot (e : Text × Json) : Except Fault (Int × Int) := do
  return (← Hex.decodeQuantity e.1, ← Hex.quantity e.2)

theorem quantityMap_eq (fields : Fields) : Hex.quantityMap fields = (fields.mapM slot).map .ofList := by
  show ((fields.mapM slot >>= fun entries => pure (Table.ofList entries)) : Except Fault _) = _
  cases fields.mapM slot <;> rfl

theorem exists_slot_eq_ok {e : Text × Json} : (∃ p, slot e = .ok p) ↔
    (∃ k, Hex.decodeQuantity e.1 = .ok k) ∧ ∃ v, Hex.quantity e.2 = .ok v := by
  simp only [slot, bind_eq_ok, pure_eq, Except.ok.injEq]
  constructor
  · rintro ⟨p, k, hk, v, hv, -⟩
    exact ⟨⟨k, hk⟩, v, hv⟩
  · rintro ⟨⟨k, hk⟩, v, hv⟩
    exact ⟨_, k, hk, v, hv, rfl⟩

namespace Hex

theorem quantity_of_encodeQuantity {n : Int} {t : Text} (h : encodeQuantity n = .ok t) :
    quantity (.text t) = .ok n := decodeQuantity_of_encodeQuantity h

theorem quantity_of_encodeWord {width n : Int} {t : Text} (h : encodeWord width n = .ok t) :
    quantity (.text t) = .ok n := decodeQuantity_of_encodeWord h

/-- Numbers written in a list are read as the same numbers, if each of them is. -/
theorem mapM_quantity_texts {write : Int → Except Fault Text} {ns : List Int} {ts : List Text}
    (hwrite : ∀ n t, write n = .ok t → quantity (.text t) = .ok n) (h : ns.mapM write = .ok ts) :
    (ts.map Json.text).mapM quantity = .ok ns := by
  rw [List.mapM_map]
  exact mapM_inverse h fun n _ t ht => hwrite n t ht

theorem octets_encode (bs : Octets) : octets (.text (encode bs)) = .ok bs := decode_encode bs

theorem quantityAt_object {fields : Fields} {key : Text} {j : Json} (h : fields.value? key = some j) :
    quantityAt (.object fields) key = quantity j := by
  rw [quantityAt, Json.field_object h, ok_bind]

theorem quantityAt_eq_ok {fields : Fields} {key : Text} {j : Json} {n : Int} (hj : fields.value? key = some j)
    (hn : quantity j = .ok n) : quantityAt (.object fields) key = .ok n := (quantityAt_object hj).trans hn

theorem quantityAt?_object (fields : Fields) (key : Text) :
    quantityAt? (.object fields) key = readOption quantity (fields.value? key) := by
  rw [quantityAt?, Json.mentions_object, ok_bind]
  cases h : fields.value? key with
  | none => rfl
  | some j =>
    rw [if_pos (by rfl), quantityAt_object h]
    rfl

theorem mentions_of_quantityAt {fields : Fields} {key : Text} {n : Int}
    (h : quantityAt (.object fields) key = .ok n) : (Json.object fields).mentions key = .ok true := by
  obtain ⟨j, hj, -⟩ := bind_eq_ok.1 h
  rw [Json.field] at hj
  split at hj
  · rename_i value hvalue
    rw [Json.mentions_object, hvalue]
    rfl
  · cases hj

theorem quantityAt?_of_quantityAt {j : Json} {key : Text} {n : Int} (h : quantityAt j key = .ok n) :
    quantityAt? j key = .ok (some n) := by
  cases j with
  | object fields => rw [quantityAt?, mentions_of_quantityAt h, ok_bind, if_pos rfl, h]; rfl
  | _ => cases h

theorem quantityAt_of_quantityAt? {fields : Fields} {key : Text} {n : Int}
    (h : quantityAt? (.object fields) key = .ok (some n)) : quantityAt (.object fields) key = .ok n := by
  rw [quantityAt?_object] at h
  obtain ⟨j, hj, hn⟩ := readOption_eq_some h
  exact quantityAt_eq_ok hj hn

end Hex

end CallTrace
