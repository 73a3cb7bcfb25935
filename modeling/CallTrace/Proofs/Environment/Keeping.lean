import CallTrace.Proofs.Environment
import CallTrace.Proofs.Hex.Width

namespace CallTrace
open Attempt

namespace Hex

def SameQuantity (j k : Json) : Prop := ∃ n, quantity j = .ok n ∧ quantity k = .ok n

theorem rel_of_quantityAt? {fields more : Fields} {key : Text} {n? : Option Int}
    (h : quantityAt? (.object fields) key = .ok n?) (hmore : quantityAt? (.object more) key = .ok n?) :
    Option.Rel SameQuantity (fields.value? key) (more.value? key) := by
  rw [quantityAt?_object] at h hmore
  exact readOption_rel h hmore

end Hex

namespace Environment

/-- An environment without negative numbers, whose coinbase has 20 octets at most, and whose hashes have 32. The
blocks may have any numbers. -/
structure Fits (e : Environment) : Prop where
  coinbase : 0 ≤ e.coinbase ∧ e.coinbase < twoPow 160
  gasLimit : 0 ≤ e.gasLimit
  number : 0 ≤ e.number
  timestamp : 0 ≤ e.timestamp
  difficulty : ∀ n ∈ e.difficulty, 0 ≤ n
  random : ∀ n ∈ e.random, 0 ≤ n ∧ n < twoPow 256
  baseFee : ∀ n ∈ e.baseFee, 0 ≤ n
  previousHash : ∀ n ∈ e.previousHash, 0 ≤ n ∧ n < twoPow 256
  blockHashes : ∀ b ∈ e.blockHashes.entries, 0 ≤ b.2 ∧ b.2 < twoPow 256

theorem fits_iff {e : Environment} : e.Fits ↔ (0 ≤ e.coinbase ∧ e.coinbase < twoPow 160) ∧ 0 ≤ e.gasLimit ∧
    0 ≤ e.number ∧ 0 ≤ e.timestamp ∧ (∀ n ∈ e.difficulty, 0 ≤ n) ∧ (∀ n ∈ e.random, 0 ≤ n ∧ n < twoPow 256) ∧
    (∀ n ∈ e.baseFee, 0 ≤ n) ∧ (∀ n ∈ e.previousHash, 0 ≤ n ∧ n < twoPow 256) ∧
    ∀ b ∈ e.blockHashes.entries, 0 ≤ b.2 ∧ b.2 < twoPow 256 :=
  ⟨fun h => ⟨h.coinbase, h.gasLimit, h.number, h.timestamp, h.difficulty, h.random, h.baseFee, h.previousHash,
    h.blockHashes⟩, fun ⟨hc, hg, hn, ht, hd, hr, hb, hp, hh⟩ => ⟨hc, hg, hn, ht, hd, hr, hb, hp, hh⟩⟩

instance (e : Environment) : Decidable e.Fits := decidable_of_iff _ fits_iff.symm

theorem exists_quantity {n : Int} (h : 0 ≤ n) : ∃ t, Hex.encodeQuantity n = .ok t :=
  (Hex.fitsJust_encodeQuantity h).1 trivial

theorem exists_word {n : Int} (h : 0 ≤ n ∧ n < twoPow 256) : ∃ t, Hex.encodeWord32 n = .ok t :=
  (Hex.fitsJust_encodeWord32 h.1).1 h.2

/-- Block hashes that fit are written, in a field that is there unless there are none. -/
theorem exists_hashFields {e : Environment} (h : ∀ b ∈ e.blockHashes.entries, 0 ≤ b.2 ∧ b.2 < twoPow 256) :
    ∃ j?, hashFields e = .ok (.ofOption "blockHashes" j?) ∧ (j? = none ↔ e.blockHashes.entries = []) := by
  have hentry : ∀ b ∈ e.blockHashes.entries, ∃ f, hashEntry b = .ok f := by
    intro b hb
    obtain ⟨t, ht⟩ := exists_word (h b hb)
    exact ⟨(Text.ofInt b.1, .text t), by rw [hashEntry, ht]; rfl⟩
  obtain ⟨hashes, hhashes⟩ := exists_mapM_eq_ok.2 hentry
  have hlength := (mapM_eq_ok.1 hhashes).length_eq
  rw [hashFields, hhashes]
  cases hashes with
  | nil => exact ⟨none, rfl, iff_of_true rfl (List.eq_nil_of_length_eq_zero hlength)⟩
  | cons f fs =>
    refine ⟨some (.object (f :: fs)), rfl, iff_of_false nofun fun hnone => ?_⟩
    rw [hnone] at hlength
    cases hlength

theorem exists_parts {e : Environment} (h : e.Fits) : ∃ known, e.parts.mapM Part.fields = .ok known := by
  have hencode : ∀ p ∈ e.parts, ∀ n ∈ p.value, ∃ t, p.encode n = .ok t := by
    simp only [parts, List.forall_mem_cons, Option.mem_def, Option.some.injEq, forall_eq']
    exact ⟨(Hex.fitsJust_encodeAddress h.coinbase.1).1 h.coinbase.2, exists_quantity h.gasLimit,
      exists_quantity h.number, exists_quantity h.timestamp, fun n hn => exists_quantity (h.difficulty n hn),
      fun n hn => exists_word (h.random n hn), fun n hn => exists_quantity (h.baseFee n hn),
      fun n hn => exists_word (h.previousHash n hn), List.forall_mem_nil _⟩
  refine exists_mapM_eq_ok.2 fun p hp => ?_
  rw [Part.fields]
  cases hvalue : p.value with
  | none => exact ⟨[], rfl⟩
  | some n =>
    obtain ⟨t, ht⟩ := hencode p hp n hvalue
    exact ⟨[(p.key, .text t)], by rw [optional, ht]; rfl⟩

/-- The known fields are written in one order, with what is kept besides behind them. -/
theorem exists_toFields {e : Environment} (h : e.Fits) : ∃ known : Fields, e.toFields = .ok (known ++ e.extra) ∧
    known.keys.Sublist knownKeys ∧ (known.value? "blockHashes" = none ↔ e.blockHashes.entries = []) := by
  obtain ⟨known, hknown⟩ := exists_parts h
  obtain ⟨hashes, hhashes, hnone⟩ := exists_hashFields h.blockHashes
  refine ⟨_, toFields_eq_ok.2 ⟨known, _, hknown, hhashes, rfl⟩, ?_, ?_⟩
  · rw [knownKeys_eq e, Fields.keys, List.map_append]
    exact (numbers_read hknown).1.append (sublist_keys_ofOption _ hashes)
  · rw [Fields.value?_append, value?_hashes_of_numbers hknown, Fields.value?_ofOption, if_pos rfl, Option.none_or]
    exact hnone

section
variable {fields more : Fields} {e : Environment}

theorem Tells.value?_extra_eq (h : Tells fields e) {key : Text} (hkey : key ∉ knownKeys) :
    Fields.value? e.extra key = fields.value? key := by
  rw [h.extra, value?_filter_isExtra hkey]

theorem Tells.rel (h : Tells fields e) (hmore : Tells more e) {key : Text} (hkey : key ∈ knownKeys)
    (hhashes : key ≠ "blockHashes") : Option.Rel Hex.SameQuantity (fields.value? key) (more.value? key) := by
  rw [knownKeys_eq e, List.mem_append, List.mem_singleton] at hkey
  obtain ⟨⟨_, n?⟩, hmem, rfl⟩ := List.mem_map.1 (hkey.resolve_right hhashes)
  exact Hex.rel_of_quantityAt? (h.numbers _ hmem) (hmore.numbers _ hmem)

theorem hashesIn_of_value?_eq_none (h : fields.value? "blockHashes" = none) : hashesIn fields = .ok [] := by
  rw [hashesIn, Json.fieldOr_object, h]
  rfl

theorem Tells.latest?_eq (h : Tells fields e) (hmore : Tells more e) : ∃ given kept, hashesIn fields = .ok given ∧
    hashesIn more = .ok kept ∧ (∀ number, Table.latest? kept number = Table.latest? given number) ∧
      (e.blockHashes.entries = [] ↔ given = []) := by
  obtain ⟨given, hgiven, hentries⟩ := h.blockHashes
  obtain ⟨kept, hkept, hmoreEntries⟩ := hmore.blockHashes
  refine ⟨given, kept, hgiven, hkept, Table.ofList_eq_iff.1 (hmoreEntries.symm.trans hentries), ?_⟩
  rw [hentries, Table.entries_ofList_eq_nil_iff]

/-- Fields that tell of one environment have the same keys, if the field of the hashes is not there without need. -/
theorem Tells.has_of_has (h : Tells fields e) (hmore : Tells more e)
    (hnone : e.blockHashes.entries = [] → more.value? "blockHashes" = none) {key : Text} (hkey : more.has key = true) :
    fields.has key = true := by
  unfold Fields.has at hkey ⊢
  by_cases hknown : key ∈ knownKeys
  · by_cases hhashes : key = "blockHashes"
    · subst hhashes
      -- Without the field no hashes are read, and where there are none the field is not written.
      by_contra hmissing
      obtain ⟨given, kept, hgiven, -, -, hempty⟩ := h.latest?_eq hmore
      rw [hashesIn_of_value?_eq_none (by simpa using hmissing)] at hgiven
      rw [hnone (hempty.2 (Except.ok.inj hgiven).symm)] at hkey
      cases hkey
    · rwa [isSome_of_rel (h.rel hmore hknown hhashes)]
  · rwa [← h.value?_extra_eq hknown, hmore.value?_extra_eq hknown]

/-- The known fields, none of them twice, stand beside those that are kept without getting in their way. -/
theorem Tells.nodup_keys (h : Tells fields e) {known : Fields} (hkeys : known.keys.Sublist knownKeys)
    (hnodup : fields.keys.Nodup) : (Fields.keys (known ++ e.extra)).Nodup := by
  have hextra : (Fields.keys e.extra).Sublist fields.keys := by
    rw [h.extra]
    exact List.Sublist.map Prod.fst List.filter_sublist
  rw [Fields.keys, List.map_append, List.nodup_append]
  refine ⟨hkeys.nodup nodup_knownKeys, hextra.nodup hnodup, ?_⟩
  rintro key hknown _ hkept rfl
  obtain ⟨f, hf, rfl⟩ := List.mem_map.1 hkept
  rw [h.extra, List.mem_filter, isExtra_of_mem (hkeys.subset hknown)] at hf
  cases hf.2

/-- An environment that was read and fits is written again and read back as it was, and nothing is lost of the object
that it was read from. The fields that mean nothing here are the same; the others say the same numbers; a block has the
hash that came last for it, and only where there are no hashes at all is their field left out. No field is new. -/
theorem toJson_keeps (h : ofJson (.object fields) = .ok e) (hfits : e.Fits) :
    ∃ written : Fields, e.toJson = .ok (.object written) ∧ ofJson (.object written) = .ok e ∧
      (∀ key ∉ knownKeys, written.value? key = fields.value? key) ∧
      (∀ key ∈ knownKeys, key ≠ "blockHashes" →
        Option.Rel Hex.SameQuantity (fields.value? key) (written.value? key)) ∧
      (∃ given kept, hashesIn fields = .ok given ∧ hashesIn written = .ok kept ∧
        (∀ number, Table.latest? kept number = Table.latest? given number) ∧
        (written.value? "blockHashes" = none ↔ given = [])) ∧
      (∀ key, written.has key = true → fields.has key = true) ∧ (fields.keys.Nodup → written.keys.Nodup) := by
  obtain ⟨known, hwrite, hkeys, hnone⟩ := exists_toFields hfits
  have hplain := plain_of_ofJson h
  have hjson : e.toJson = .ok (.object (known ++ e.extra)) := by rw [toJson, hwrite]; rfl
  have hback := ofJson_of_toJson hplain hjson
  obtain ⟨_, hobject, hgiven⟩ := tells_of_ofJson h
  obtain rfl := Json.object.inj hobject
  obtain ⟨_, hobject, hkept⟩ := tells_of_ofJson hback
  obtain rfl := Json.object.inj hobject
  rw [← value?_append_extra hplain known (by simp [knownKeys])] at hnone
  refine ⟨known ++ e.extra, hjson, hback, fun key hkey => ?_, fun key hkey => hgiven.rel hkept hkey, ?_,
    fun key => hgiven.has_of_has hkept hnone.2, hgiven.nodup_keys hkeys⟩
  · rw [← hkept.value?_extra_eq hkey, hgiven.value?_extra_eq hkey]
  · obtain ⟨given, kept, hreadGiven, hreadKept, hlatest, hempty⟩ := hgiven.latest?_eq hkept
    exact ⟨given, kept, hreadGiven, hreadKept, hlatest, hnone.trans hempty⟩

end

/-- A block whose numbers are not spelled as they are written, with two hashes for its fifth ancestor. -/
def respelledBlock : Fields := [("currentCoinbase", .text "0X1"), ("withdrawals", .list [.null]),
  ("currentGasLimit", .int 5), ("currentTimestamp", .text "3"), ("currentNumber", .text "0x07"),
  ("previousHash", .text "0x"), ("blockHashes", .object [("5", .text "0x1"), ("6", .int 9), (" 05", .text "0x02")])]

theorem toJson_keeps_respelledBlock : ∃ e, ofJson (.object respelledBlock) = .ok e ∧ e.Fits ∧
    ∃ written : Fields, e.toJson = .ok (.object written) ∧ ofJson (.object written) = .ok e ∧
      written.value? "withdrawals" = some (.list [.null]) ∧
      Option.Rel Hex.SameQuantity (some (.int 5)) (written.value? "currentGasLimit") ∧
      Option.Rel Hex.SameQuantity none (written.value? "currentRandom") ∧
      ∃ kept, hashesIn written = .ok kept ∧ Table.latest? kept 5 = some 2 ∧ Table.latest? kept 6 = some 9 := by
  have hread : ∃ e, ofJson (.object respelledBlock) = .ok e ∧ e.Fits := ⟨_, rfl, by decide⟩
  obtain ⟨e, hread, hfits⟩ := hread
  obtain ⟨written, hjson, hback, hextra, hknown, ⟨given, kept, hgiven, hkept, hlatest, -⟩, -⟩ :=
    toJson_keeps hread hfits
  have hhashes : given = [(5, 1), (6, 9), (5, 2)] := Except.ok.inj (hgiven.symm.trans rfl)
  refine ⟨e, hread, hfits, written, hjson, hback, ?_, ?_, ?_, kept, hkept, ?_, ?_⟩
  · simpa [respelledBlock] using hextra "withdrawals" (by simp [knownKeys, requiredKeys])
  · simpa [respelledBlock] using hknown "currentGasLimit" (by simp [knownKeys, requiredKeys]) (by simp)
  · simpa [respelledBlock] using hknown "currentRandom" (by simp [knownKeys, requiredKeys]) (by simp)
  · rw [hlatest, hhashes]
    rfl
  · rw [hlatest, hhashes]
    rfl

end Environment

end CallTrace
