import CallTrace.Proofs.Hex.Width
import CallTrace.Proofs.WorldState
import Mathlib.Data.Option.Basic

namespace CallTrace
open Attempt

namespace Account

structure Fits (a : Account) : Prop where
  balance : 0 ≤ a.balance
  nonce : 0 ≤ a.nonce
  storage : ∀ e ∈ a.storage.entries, (0 ≤ e.1 ∧ e.1 < twoPow 256) ∧ 0 ≤ e.2 ∧ e.2 < twoPow 256

theorem fits_iff {a : Account} : a.Fits ↔ 0 ≤ a.balance ∧ 0 ≤ a.nonce ∧
    ∀ e ∈ a.storage.entries, (0 ≤ e.1 ∧ e.1 < twoPow 256) ∧ 0 ≤ e.2 ∧ e.2 < twoPow 256 :=
  ⟨fun h => ⟨h.balance, h.nonce, h.storage⟩, fun h => ⟨h.1, h.2.1, h.2.2⟩⟩

instance (a : Account) : Decidable a.Fits := decidable_of_iff _ fits_iff.symm

theorem exists_storageEntry {e : Int × Int} (h : (0 ≤ e.1 ∧ e.1 < twoPow 256) ∧ 0 ≤ e.2 ∧ e.2 < twoPow 256) :
    ∃ f, storageEntry e = .ok f := by
  obtain ⟨key, hkey⟩ := (Hex.fitsJust_encodeWord32 h.1.1).1 h.1.2
  obtain ⟨value, hvalue⟩ := (Hex.fitsJust_encodeWord32 h.2.1).1 h.2.2
  exact ⟨(key, .text value), by rw [storageEntry, hkey, hvalue]; rfl⟩

theorem exists_toJson {a : Account} (h : a.Fits) : ∃ j, a.toJson = .ok j := by
  obtain ⟨balance, hbalance⟩ := (Hex.fitsJust_encodeQuantity h.balance).1 trivial
  obtain ⟨nonce, hnonce⟩ := (Hex.fitsJust_encodeQuantity h.nonce).1 trivial
  obtain ⟨storage, hstorage⟩ := exists_mapM_eq_ok.2 fun e he => exists_storageEntry (h.storage e he)
  exact ⟨_, by rw [toJson, hbalance, hnonce, hstorage]; rfl⟩

/-- An account as it is put together: values go into slots one after the other. -/
structure Draft where
  balance : Int
  nonce : Int
  storage : List (Int × Int)
  code : Octets

namespace Draft

def account (d : Draft) : Account := ⟨d.balance, d.nonce, .ofList d.storage, d.code⟩

/-- Drafts of one account: into every slot the same value went last. -/
structure Same (d e : Draft) : Prop where
  balance : d.balance = e.balance
  nonce : d.nonce = e.nonce
  storage : ∀ slot, Table.latest? d.storage slot = Table.latest? e.storage slot
  code : d.code = e.code

theorem account_eq_iff {d e : Draft} : d.account = e.account ↔ d.Same e := by
  unfold account
  rw [Account.mk.injEq, Table.ofList_eq_iff]
  exact ⟨fun h => ⟨h.1, h.2.1, h.2.2.1, h.2.2.2⟩, fun h => ⟨h.balance, h.nonce, h.storage, h.code⟩⟩

end Draft

end Account

namespace WorldState

def Fits (state : WorldState) : Prop := ∀ e ∈ state.entries, (0 ≤ e.1 ∧ e.1 < twoPow 160) ∧ e.2.Fits

instance (state : WorldState) : Decidable state.Fits :=
  inferInstanceAs (Decidable (∀ e ∈ state.entries, (0 ≤ e.1 ∧ e.1 < twoPow 160) ∧ e.2.Fits))

theorem exists_toJson {state : WorldState} (h : state.Fits) : ∃ j, state.toJson = .ok j := by
  have hentry : ∀ e ∈ state.entries, ∃ f, entryToJson e = .ok f := by
    intro e he
    obtain ⟨haddress, haccount⟩ := h e he
    obtain ⟨key, hkey⟩ := (Hex.fitsJust_encodeAddress haddress.1).1 haddress.2
    obtain ⟨j, hj⟩ := Account.exists_toJson haccount
    exact ⟨(key, j), by rw [entryToJson, hkey, hj]; rfl⟩
  obtain ⟨fields, hfields⟩ := exists_mapM_eq_ok.2 hentry
  exact ⟨.object fields, by rw [toJson, hfields]; rfl⟩

def ofDrafts (ds : List (Int × Account.Draft)) : WorldState := .ofList (ds.map fun d => (d.1, d.2.account))

/-- Drafts of one state: to every address the same account went last. -/
def Same (ds es : List (Int × Account.Draft)) : Prop :=
  ∀ address, Option.Rel Account.Draft.Same (Table.latest? ds address) (Table.latest? es address)

theorem ofDrafts_eq_iff {ds es : List (Int × Account.Draft)} : ofDrafts ds = ofDrafts es ↔ Same ds es := by
  unfold ofDrafts
  rw [Table.ofList_eq_iff]
  refine forall_congr' fun address => ?_
  rw [Table.latest?_map, Table.latest?_map]
  cases Table.latest? ds address with
  | none => cases Table.latest? es address <;> simp
  | some d => cases Table.latest? es address <;> simp [Account.Draft.account_eq_iff]

/-- States that fit are written, read back as they were, and written alike just if they are the same: if, in whatever
order they were put together, the same came last to every address and every slot. -/
theorem toJson_canonical {a b : WorldState} (ha : a.Fits) (hb : b.Fits) :
    ∃ j k, a.toJson = .ok j ∧ b.toJson = .ok k ∧ ofJson j = .ok a ∧ (a = b ↔ j = k) ∧
      ∀ ds es, ofDrafts ds = a → ofDrafts es = b → (Same ds es ↔ j = k) := by
  obtain ⟨j, hj⟩ := exists_toJson ha
  obtain ⟨k, hk⟩ := exists_toJson hb
  have hequal : a = b ↔ j = k := by
    constructor
    · rintro rfl
      exact Except.ok.inj (hj.symm.trans hk)
    · rintro rfl
      exact Except.ok.inj ((ofJson_of_toJson hj).symm.trans (ofJson_of_toJson hk))
  refine ⟨j, k, hj, hk, ofJson_of_toJson hj, hequal, ?_⟩
  rintro ds es rfl rfl
  rw [← ofDrafts_eq_iff, hequal]

def contractFirst : List (Int × Account.Draft) :=
  [(9, ⟨5, 1, [(2, 7), (0, 0)], [96]⟩), (0, ⟨0, 0, [], []⟩)]

def contractLast : List (Int × Account.Draft) :=
  [(9, ⟨0, 0, [], []⟩), (0, ⟨0, 0, [], []⟩), (9, ⟨5, 1, [(0, 0), (2, 6), (2, 7)], [96]⟩)]

theorem toJson_canonical_contract :
    (ofDrafts contractFirst).Fits ∧ (ofDrafts contractLast).Fits ∧
      ∃ j, (ofDrafts contractFirst).toJson = .ok j ∧ (ofDrafts contractLast).toJson = .ok j ∧
        ofJson j = .ok (ofDrafts contractFirst) ∧ Same contractFirst contractLast := by
  have hfirst : (ofDrafts contractFirst).Fits := by decide
  have hlast : (ofDrafts contractLast).Fits := by decide
  obtain ⟨j, k, hj, hk, hread, hequal, hsame⟩ := toJson_canonical hfirst hlast
  have hjk : j = k := hequal.1 (by decide)
  exact ⟨hfirst, hlast, j, hj, hjk ▸ hk, hread, (hsame _ _ rfl rfl).2 hjk⟩

end WorldState

end CallTrace
