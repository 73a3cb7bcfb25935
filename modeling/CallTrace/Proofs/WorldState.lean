import CallTrace.Proofs.Hex.Fields
import CallTrace.Proofs.Json.Fields
import CallTrace.Proofs.Table
import CallTrace.WorldState

namespace CallTrace
open Attempt

namespace Account

/-- The entries of a storage, read value by value and then key by key, meet again. -/
theorem storage_read {storage : Table Int} {fields : Fields}
    (h : storage.entries.mapM storageEntry = .ok fields) : storageOf (.object fields) = .ok storage := by
  have hentry : ∀ e ∈ storage.entries, ∀ f, storageEntry e = .ok f →
      Hex.decodeQuantity f.1 = .ok e.1 ∧ Hex.quantity f.2 = .ok e.2 := by
    intro e _ f hf
    obtain ⟨key, hkey, hf⟩ := bind_eq_ok.1 hf
    obtain ⟨value, hvalue, hf⟩ := bind_eq_ok.1 hf
    obtain rfl := Except.ok.inj hf
    exact ⟨Hex.decodeQuantity_of_encodeWord hkey, Hex.quantity_of_encodeWord hvalue⟩
  have hvalues : (fields.mapM fun f => Hex.quantity f.2) = .ok (storage.entries.map Prod.snd) :=
    mapM_of_mapM h fun e he f hf => (hentry e he f hf).2
  have hkeys : (fields.mapM fun f => Hex.decodeQuantity f.1) = .ok (storage.entries.map Prod.fst) :=
    mapM_of_mapM h fun e he f hf => (hentry e he f hf).1
  have hzip : storage.entries = (storage.entries.map Prod.fst).zip (storage.entries.map Prod.snd) :=
    List.zip_of_prod rfl rfl
  unfold storageOf
  rw [Json.fields_object, ok_bind, hvalues, ok_bind, hkeys, ok_bind, ← hzip, Table.ofList_entries]
  rfl

theorem ofJson_of_toJson {a : Account} {j : Json} (h : a.toJson = .ok j) : ofJson j = .ok a := by
  obtain ⟨balance, hbalance, h⟩ := bind_eq_ok.1 h
  obtain ⟨nonce, hnonce, h⟩ := bind_eq_ok.1 h
  obtain ⟨storage, hstorage, h⟩ := bind_eq_ok.1 h
  obtain rfl := Except.ok.inj h
  simp [ofJson, Hex.quantityAt, Hex.octetsAt, Json.field, Hex.quantity_of_encodeQuantity hbalance,
    Hex.quantity_of_encodeQuantity hnonce, storage_read hstorage, Hex.octets_encode, Fault.onMissing_ok]

end Account

namespace WorldState

theorem entryOf_of_entryToJson {e : Int × Account} {f : Text × Json} (h : entryToJson e = .ok f) :
    entryOf f = .ok e := by
  obtain ⟨key, hkey, h⟩ := bind_eq_ok.1 h
  obtain ⟨account, haccount, h⟩ := bind_eq_ok.1 h
  obtain rfl := Except.ok.inj h
  unfold entryOf
  rw [Hex.decodeQuantity_of_encodeWord hkey, ok_bind, Account.ofJson_of_toJson haccount]
  rfl

theorem ofJson_of_toJson {state : WorldState} {j : Json} (h : state.toJson = .ok j) : ofJson j = .ok state := by
  obtain ⟨fields, hfields, h⟩ := bind_eq_ok.1 h
  obtain rfl := Except.ok.inj h
  have hentries : fields.mapM entryOf = .ok state.entries :=
    mapM_inverse hfields fun _ _ _ => entryOf_of_entryToJson
  unfold ofJson
  rw [Json.fields_object, ok_bind, hentries, ok_bind, Table.ofList_entries]
  rfl

end WorldState

end CallTrace
