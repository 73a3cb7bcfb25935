import CallTrace.Proofs.Hex.Width
import CallTrace.Proofs.Transaction

namespace CallTrace
open Attempt

structure Access.Fits (a : Access) : Prop where
  address : a.address < twoPow 160
  storageKeys : ∀ key ∈ a.storageKeys, key < twoPow 256

theorem Access.fits_iff {a : Access} :
    a.Fits ↔ a.address < twoPow 160 ∧ ∀ key ∈ a.storageKeys, key < twoPow 256 :=
  ⟨fun h => ⟨h.address, h.storageKeys⟩, fun h => ⟨h.1, h.2⟩⟩

instance (a : Access) : Decidable a.Fits := decidable_of_iff _ Access.fits_iff.symm

theorem fitsJust_accessToJson {a : Access} (h : ∀ n ∈ a.numbers, 0 ≤ n) : FitsJust a.Fits (accessToJson a) := by
  obtain ⟨haddress, hkeys⟩ := List.forall_mem_cons.1 h
  refine FitsJust.congr ?_ Access.fits_iff.symm
  refine (Hex.fitsJust_encodeAddress haddress).bind fun address => ?_
  have hwritten := FitsJust.mapM fun key hkey => Hex.fitsJust_encodeWord32 (hkeys key hkey)
  exact (hwritten.bind fun keys => .of_ok _).congr (and_iff_left trivial)

theorem Fee.fitsJust_toFields {fee : Fee} (h : ∀ n ∈ fee.numbers, 0 ≤ n) : FitsJust True fee.toFields := by
  cases fee with
  | legacy price =>
    have hprice := Hex.fitsJust_encodeQuantity (h price (List.mem_singleton_self price))
    exact (hprice.bind fun text => .of_ok _).congr (and_self_iff)
  | dynamic tip limit =>
    have htip := Hex.fitsJust_encodeQuantity (h tip (by simp [numbers]))
    have hlimit := Hex.fitsJust_encodeQuantity (h limit (by simp [numbers]))
    refine (htip.bind fun tipText => ?_).congr and_self_iff
    exact (hlimit.bind fun limitText => .of_ok _).congr and_self_iff

namespace Transaction

/-- A transaction whose addresses have 20 octets at most, and its secret and its slots 32. -/
structure Fits (tx : Transaction) : Prop where
  sender : tx.sender < twoPow 160
  secretKey : tx.secretKey < twoPow 256
  recipient : ∀ n ∈ tx.recipient, n < twoPow 160
  accessList : ∀ l ∈ tx.accessList, ∀ a ∈ l, a.Fits

theorem fits_iff {tx : Transaction} : tx.Fits ↔ tx.sender < twoPow 160 ∧ tx.secretKey < twoPow 256 ∧
    (∀ n ∈ tx.recipient, n < twoPow 160) ∧ ∀ l ∈ tx.accessList, ∀ a ∈ l, a.Fits :=
  ⟨fun h => ⟨h.sender, h.secretKey, h.recipient, h.accessList⟩, fun h => ⟨h.1, h.2.1, h.2.2.1, h.2.2.2⟩⟩

instance (tx : Transaction) : Decidable tx.Fits := decidable_of_iff _ fits_iff.symm

/-- What may be left out fits if it is left out, or fits. -/
theorem fitsJust_optional {α : Type} {key : Text} {write : α → Except Fault Json} {p : α → Prop} {a? : Option α}
    (h : ∀ a ∈ a?, FitsJust (p a) (write a)) : FitsJust (∀ a ∈ a?, p a) (optional key write a?) := by
  cases a? with
  | none => exact (FitsJust.of_ok []).congr (iff_of_true trivial nofun)
  | some a =>
    refine (((h a rfl).bind fun j => .of_ok [(key, j)]).congr (and_iff_left trivial)).congr ?_
    exact ⟨fun ha b hb => Option.some.inj hb ▸ ha, fun ha => ha a rfl⟩

theorem fitsJust_recipientToJson {n : Int} (h : 0 ≤ n) : FitsJust (n < twoPow 160) (recipientToJson n) :=
  ((Hex.fitsJust_encodeAddress h).bind fun _ => .of_ok _).congr (and_iff_left trivial)

theorem fitsJust_accessListToJson {l : AccessList} (h : ∀ a ∈ l, ∀ n ∈ a.numbers, 0 ≤ n) :
    FitsJust (∀ a ∈ l, a.Fits) (accessListToJson l) :=
  ((FitsJust.mapM fun a ha => fitsJust_accessToJson (h a ha)).bind fun _ => .of_ok _).congr
    (and_iff_left trivial)

theorem fitsJust_toFields {tx : Transaction} (h : ∀ n ∈ tx.numbers, 0 ≤ n) : FitsJust tx.Fits tx.toFields := by
  simp only [numbers, List.forall_mem_append, List.forall_mem_cons, List.forall_mem_flatMap] at h
  obtain ⟨⟨⟨⟨hsender, hsecretKey, hnonce, hgasLimit, hvalue, hchainId, -⟩, hrecipient⟩, haccessList⟩, hfee⟩ := h
  have hrecipient : ∀ n ∈ tx.recipient, FitsJust (n < twoPow 160) (recipientToJson n) := by
    intro n hn
    exact fitsJust_recipientToJson (hrecipient n (Option.mem_toList.2 hn))
  have haccessList : ∀ l ∈ tx.accessList, FitsJust (∀ a ∈ l, a.Fits) (accessListToJson l) := by
    intro l hl
    rw [Option.mem_def.1 hl] at haccessList
    exact fitsJust_accessListToJson haccessList
  -- The parts are written one after the other, each with its own bound.
  have hparts : FitsJust (True ∧ tx.sender < twoPow 160 ∧ tx.secretKey < twoPow 256 ∧
      (∀ n ∈ tx.recipient, n < twoPow 160) ∧ True ∧ True ∧ True ∧ (∀ l ∈ tx.accessList, ∀ a ∈ l, a.Fits) ∧
      True ∧ True) tx.toFields := by
    refine (Hex.fitsJust_encodeQuantity hchainId).bind fun chainId => ?_
    refine (Hex.fitsJust_encodeAddress hsender).bind fun sender => ?_
    refine (Hex.fitsJust_encodeWord32 hsecretKey).bind fun secretKey => ?_
    refine (fitsJust_optional hrecipient).bind fun recipient => ?_
    refine (Hex.fitsJust_encodeQuantity hgasLimit).bind fun gasLimit => ?_
    refine (Hex.fitsJust_encodeQuantity hnonce).bind fun nonce => ?_
    refine (Hex.fitsJust_encodeQuantity hvalue).bind fun value => ?_
    refine (fitsJust_optional haccessList).bind fun accessList => ?_
    exact (Fee.fitsJust_toFields hfee).bind fun fee => .of_ok _
  refine hparts.congr ⟨?_, fun h => ?_⟩
  · rintro ⟨-, hs, hk, hr, -, -, -, ha, -⟩
    exact ⟨hs, hk, hr, ha⟩
  · exact ⟨trivial, h.sender, h.secretKey, h.recipient, trivial, trivial, trivial, h.accessList, trivial, trivial⟩

/-- A transaction without negative numbers that fits is written and read back as it was, of the same sort, and one
that does not fit is refused for a number that is too large. -/
theorem ofJson_toJson {tx : Transaction} (h : ∀ n ∈ tx.numbers, 0 ≤ n) :
    (tx.Fits → ∃ j, tx.toJson = .ok j ∧ ofJson j = .ok tx) ∧
      ((∃ f, tx.toJson = .error f ∧ f.family? = some .valueTooLarge) ↔ ¬ tx.Fits) := by
  have hwritten : FitsJust tx.Fits tx.toJson :=
    ((fitsJust_toFields h).bind fun fields => .of_ok _).congr (and_iff_left trivial)
  refine ⟨fun hfits => ?_, ?_, fun hfits => ?_⟩
  · obtain ⟨j, hj⟩ := hwritten.1 hfits
    exact ⟨j, hj, ofJson_of_toJson hj⟩
  · rintro ⟨f, hf, -⟩ hfits
    obtain ⟨j, hj⟩ := hwritten.1 hfits
    rw [hj] at hf
    cases hf
  · obtain ⟨value, width, hf⟩ := hwritten.2 hfits
    exact ⟨_, hf, rfl⟩

/-- A call to the zero address that announces one address twice, with its last slot, and another without slots. -/
def zeroCall : Transaction where
  sender := twoPow 160 - 1
  secretKey := twoPow 256 - 1
  recipient := some 0
  nonce := 0
  gasLimit := 21000
  value := twoPow 300
  data := []
  accessList := some [⟨1, [twoPow 256 - 1, 0]⟩, ⟨1, [twoPow 256 - 1, 0]⟩, ⟨2, []⟩]
  chainId := 1
  fee := .dynamic 0 7

def wideCall : Transaction := { zeroCall with sender := twoPow 160 }

theorem ofJson_toJson_zeroCall :
    ((∀ n ∈ zeroCall.numbers, 0 ≤ n) ∧ zeroCall.Fits ∧ ∃ j, zeroCall.toJson = .ok j ∧ ofJson j = .ok zeroCall) ∧
      (∀ n ∈ wideCall.numbers, 0 ≤ n) ∧ ¬ wideCall.Fits ∧
        ∃ f, wideCall.toJson = .error f ∧ f.family? = some .valueTooLarge :=
  ⟨⟨by decide, by decide, (ofJson_toJson (by decide)).1 (by decide)⟩, by decide, by decide,
    (ofJson_toJson (by decide)).2.2 (by decide)⟩

end Transaction

end CallTrace
