import CallTrace.Proofs.Hex.Fields
import CallTrace.Proofs.Json.Fields
import CallTrace.Transaction.Document

namespace CallTrace
open Attempt

theorem accessOf_of_accessToJson {a : Access} {j : Json} (h : accessToJson a = .ok j) : accessOf j = .ok a := by
  obtain ⟨address, haddress, h⟩ := bind_eq_ok.1 h
  obtain ⟨keys, hkeys, h⟩ := bind_eq_ok.1 h
  obtain rfl := Except.ok.inj h
  have hitems : (keys.map Json.text).mapM Hex.quantity = .ok a.storageKeys :=
    Hex.mapM_quantity_texts (fun _ _ => Hex.quantity_of_encodeWord) hkeys
  simp [accessOf, Hex.quantityAt, Json.field, Json.texts, Json.items, Hex.quantity_of_encodeWord haddress, hitems]

/-- The price that is offered tells the sort of the transaction apart. -/
theorem Fee.read_of_toFields {fee : Fee} {fields : Fields} (h : fee.toFields = .ok fields) :
    ∃ price? tip? limit?, fields = .ofOption "gasPrice" price? ++ .ofOption "maxPriorityFeePerGas" tip? ++
        .ofOption "maxFeePerGas" limit? ∧
      ∀ all : Fields, all.value? "gasPrice" = price? → all.value? "maxPriorityFeePerGas" = tip? →
        all.value? "maxFeePerGas" = limit? →
        ∃ kind, Kind.ofJson (.object all) = .ok kind ∧ ofJson kind (.object all) = .ok fee := by
  cases fee with
  | legacy price =>
    obtain ⟨text, htext, h⟩ := bind_eq_ok.1 h
    obtain rfl := Except.ok.inj h
    refine ⟨some (.text text), none, none, rfl, fun all hprice _ _ => ⟨.legacy, ?_, ?_⟩⟩
    · simp [Kind.ofJson, hprice]
    · simp [ofJson, Hex.quantityAt_object hprice, Hex.quantity_of_encodeQuantity htext]
  | dynamic tip limit =>
    obtain ⟨tipText, htip, h⟩ := bind_eq_ok.1 h
    obtain ⟨limitText, hlimit, h⟩ := bind_eq_ok.1 h
    obtain rfl := Except.ok.inj h
    refine ⟨none, some (.text tipText), some (.text limitText), rfl,
      fun all hprice htipAt hlimitAt => ⟨.dynamic, ?_, ?_⟩⟩
    · simp [Kind.ofJson, hprice, htipAt, hlimitAt]
    · simp [ofJson, Hex.quantityAt_object htipAt, Hex.quantityAt_object hlimitAt,
        Hex.quantity_of_encodeQuantity htip, Hex.quantity_of_encodeQuantity hlimit]

namespace Transaction

theorem accessListOf_of_accessListToJson {l : AccessList} {j : Json} (h : accessListToJson l = .ok j) :
    accessListOf j = .ok l := by
  obtain ⟨items, hitems, h⟩ := bind_eq_ok.1 h
  obtain rfl := Except.ok.inj h
  have hread : items.mapM accessOf = .ok l := mapM_inverse hitems fun _ _ _ => accessOf_of_accessToJson
  cases items with
  | nil => exact hread
  | cons j js => exact hread

theorem optional_read {α : Type} {key : Text} {write : α → Except Fault Json} {read : Json → Except Fault α}
    {a? : Option α} {fields : Fields} (hwrite : ∀ a j, write a = .ok j → read j = .ok a)
    (h : optional key write a? = .ok fields) :
    ∃ j?, fields = .ofOption key j? ∧ readOption read j? = .ok a? ∧ ∀ j, j? = some j → ∃ a, write a = .ok j := by
  cases a? with
  | none =>
    obtain rfl := Except.ok.inj h
    exact ⟨none, rfl, rfl, nofun⟩
  | some a =>
    obtain ⟨j, hj, h⟩ := bind_eq_ok.1 h
    obtain rfl := Except.ok.inj h
    refine ⟨some j, rfl, by rw [readOption, hwrite a j hj]; rfl, ?_⟩
    rintro _ ⟨rfl⟩
    exact ⟨a, hj⟩

def recipientToJson (n : Int) : Except Fault Json := return .text (← Hex.encodeAddress n)

theorem quantity_of_recipientToJson {n : Int} {j : Json} (h : recipientToJson n = .ok j) :
    Hex.quantity j = .ok n := by
  obtain ⟨t, ht, h⟩ := bind_eq_ok.1 h
  obtain rfl := Except.ok.inj h
  exact Hex.quantity_of_encodeWord ht

/-- No address is written as an empty text. -/
theorem isGiven_of_recipientToJson {n : Int} {j : Json} (h : recipientToJson n = .ok j) :
    j.isGiven = true := by
  obtain ⟨t, ht, h⟩ := bind_eq_ok.1 h
  obtain rfl := Except.ok.inj h
  unfold Hex.encodeAddress Hex.encodeWord at ht
  repeat' split at ht
  all_goals cases ht
  rfl

theorem recipientOf_object {fields : Fields} {j? : Option Json} {n? : Option Int} (hj : fields.value? "to" = j?)
    (hgiven : ∀ j, j? = some j → j.isGiven = true) (h : readOption Hex.quantity j? = .ok n?) :
    recipientOf (.object fields) = .ok n? := by
  unfold recipientOf
  rw [Json.fieldOr_object, hj, ok_bind]
  cases j? with
  | none => exact h
  | some j =>
    rw [Option.getD_some, Json.given?, if_pos (hgiven j rfl)]
    exact h

theorem accessesOf_object {fields : Fields} {j? : Option Json} {l? : Option AccessList}
    (hj : fields.value? "accessList" = j?) (h : readOption accessListOf j? = .ok l?) :
    accessesOf (.object fields) = .ok l? := by
  unfold accessesOf
  rw [Json.mentions_object, hj, ok_bind]
  cases j? with
  | none => exact h
  | some j =>
    rw [if_pos (by rfl), Json.field_object hj, ok_bind]
    exact h

theorem typeFields_eq (tx : Transaction) : ∃ j?, tx.typeFields = .ofOption "type" j? := by
  unfold typeFields
  split
  · exact ⟨some _, rfl⟩
  · exact ⟨some _, rfl⟩
  · exact ⟨none, rfl⟩

structure Written (tx : Transaction) (fields : Fields) : Prop where
  data : ∃ j, dataOf (.object fields) = .ok j ∧ Hex.octets j = .ok tx.data
  sender : Hex.quantityAt (.object fields) "sender" = .ok tx.sender
  secretKey : Hex.quantityAt (.object fields) "secretKey" = .ok tx.secretKey
  recipient : recipientOf (.object fields) = .ok tx.recipient
  nonce : Hex.quantityAt (.object fields) "nonce" = .ok tx.nonce
  gasLimit : Hex.quantityAt (.object fields) "gasLimit" = .ok tx.gasLimit
  value : Hex.quantityAt (.object fields) "value" = .ok tx.value
  accessList : accessesOf (.object fields) = .ok tx.accessList
  chainId : ∃ j, (Json.object fields).fieldOr "chainId" (.int defaultChainId) = .ok j ∧
    Hex.quantity j = .ok tx.chainId
  fee : ∃ kind, Fee.Kind.ofJson (.object fields) = .ok kind ∧ Fee.ofJson kind (.object fields) = .ok tx.fee

theorem ofJson_of_written {tx : Transaction} {fields : Fields} (h : Written tx fields) :
    ofJson (.object fields) = .ok tx := by
  obtain ⟨kind, hkind, hfee⟩ := h.fee
  obtain ⟨data, hdata, hoctets⟩ := h.data
  obtain ⟨chainId, hchain, hchainId⟩ := h.chainId
  have hread : readAs kind (.object fields) = .ok tx := by
    unfold readAs
    simp only [hdata, hoctets, h.sender, h.secretKey, h.recipient, h.nonce, h.gasLimit, h.value, h.accessList, hchain,
      hchainId, hfee, ok_bind]
    rfl
  unfold ofJson
  rw [hkind, ok_bind, hread, Fault.onMissing_ok]

theorem written_of_toFields {tx : Transaction} {fields : Fields} (h : tx.toFields = .ok fields) :
    Written tx fields := by
  obtain ⟨chainId, hchainId, h⟩ := bind_eq_ok.1 h
  obtain ⟨sender, hsender, h⟩ := bind_eq_ok.1 h
  obtain ⟨secretKey, hsecretKey, h⟩ := bind_eq_ok.1 h
  obtain ⟨_, hrecipient, h⟩ := bind_eq_ok.1 h
  obtain ⟨gasLimit, hgasLimit, h⟩ := bind_eq_ok.1 h
  obtain ⟨nonce, hnonce, h⟩ := bind_eq_ok.1 h
  obtain ⟨value, hvalue, h⟩ := bind_eq_ok.1 h
  obtain ⟨_, haccessList, h⟩ := bind_eq_ok.1 h
  obtain ⟨fee, hfee, h⟩ := bind_eq_ok.1 h
  have hrecipient : optional "to" recipientToJson tx.recipient = .ok _ := hrecipient
  obtain ⟨recipient?, rfl, hreadRecipient, hwritten⟩ :=
    optional_read (fun _ _ => quantity_of_recipientToJson) hrecipient
  obtain ⟨accessList?, rfl, hreadAccessList, -⟩ :=
    optional_read (fun _ _ => accessListOf_of_accessListToJson) haccessList
  obtain ⟨price?, tip?, limit?, rfl, hreadFee⟩ := Fee.read_of_toFields hfee
  obtain ⟨type?, htype⟩ := typeFields_eq tx
  -- An address that said nothing would be read as no recipient.
  have hgiven : ∀ j, recipient? = some j → j.isGiven = true := by
    intro j hj
    obtain ⟨n, hn⟩ := hwritten j hj
    exact isGiven_of_recipientToJson hn
  rw [htype] at h
  obtain rfl := Except.ok.inj h
  constructor
  · exact ⟨.text (Hex.encode tx.data), by simp [dataOf, Fields.concat], Hex.octets_encode tx.data⟩
  · exact Hex.quantityAt_eq_ok (by simp [Fields.concat]) (Hex.quantity_of_encodeWord hsender)
  · exact Hex.quantityAt_eq_ok (by simp [Fields.concat]) (Hex.quantity_of_encodeWord hsecretKey)
  · exact recipientOf_object (by simp [Fields.concat]) hgiven hreadRecipient
  · exact Hex.quantityAt_eq_ok (by simp [Fields.concat]) (Hex.quantity_of_encodeQuantity hnonce)
  · exact Hex.quantityAt_eq_ok (by simp [Fields.concat]) (Hex.quantity_of_encodeQuantity hgasLimit)
  · exact Hex.quantityAt_eq_ok (by simp [Fields.concat]) (Hex.quantity_of_encodeQuantity hvalue)
  · exact accessesOf_object (by simp [Fields.concat]) hreadAccessList
  · exact ⟨.text chainId, by simp [Fields.concat], Hex.quantity_of_encodeQuantity hchainId⟩
  · exact hreadFee _ (by simp [Fields.concat]) (by simp [Fields.concat]) (by simp [Fields.concat])

theorem ofJson_of_toJson {tx : Transaction} {j : Json} (h : tx.toJson = .ok j) : ofJson j = .ok tx := by
  obtain ⟨fields, hfields, h⟩ := bind_eq_ok.1 h
  obtain rfl := Except.ok.inj h
  exact ofJson_of_written (written_of_toFields hfields)

end Transaction

end CallTrace
