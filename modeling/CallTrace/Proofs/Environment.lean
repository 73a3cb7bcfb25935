import CallTrace.Environment
import CallTrace.Proofs.Hex.Fields
import CallTrace.Proofs.Json.Fields
import CallTrace.Proofs.Number.Decimal
import CallTrace.Proofs.Table

namespace CallTrace
open Attempt

namespace Environment

/-- An environment as it is read: the numbers of its blocks can be written, and what it keeps besides has
other keys than its parts. -/
structure Plain (e : Environment) : Prop where
  numbers : ∀ b ∈ e.blockHashes.entries, Number.isLengthy b.1 = false
  extra : ∀ f ∈ e.extra, isExtra f = true

theorem optional_read {encode : Int → Except Fault Text} {key : Text} {n? : Option Int} {fields : Fields}
    (hencode : ∀ n t, encode n = .ok t → Hex.quantity (.text t) = .ok n)
    (h : optional key encode n? = .ok fields) :
    ∃ j?, fields = .ofOption key j? ∧ readOption Hex.quantity j? = .ok n? := by
  cases n? with
  | none =>
    obtain rfl := Except.ok.inj h
    exact ⟨none, rfl, rfl⟩
  | some n =>
    obtain ⟨t, ht, h⟩ := bind_eq_ok.1 h
    obtain rfl := Except.ok.inj h
    exact ⟨some (.text t), rfl, by rw [readOption, hencode n t ht]; rfl⟩

theorem blockHash_of_hashEntry {e : Int × Int} {f : Text × Json} (he : Number.isLengthy e.1 = false)
    (h : hashEntry e = .ok f) : blockHash f = .ok e := by
  unfold hashEntry at h
  obtain ⟨value, hvalue, h⟩ := bind_eq_ok.1 h
  obtain rfl := Except.ok.inj h
  have hnumber : (Json.text (Text.ofInt e.1)).toInt = .ok e.1 := by
    rw [Json.toInt, Number.integer?_ofInt he]
    rfl
  unfold blockHash
  rw [hnumber, ok_bind, Hex.quantity_of_encodeWord hvalue]
  rfl

theorem not_isLengthy_of_blockHash {e : Int × Int} {f : Text × Json} (h : blockHash f = .ok e) :
    Number.isLengthy e.1 = false := by
  obtain ⟨n, hn, h⟩ := bind_eq_ok.1 h
  obtain ⟨value, -, h⟩ := bind_eq_ok.1 h
  obtain rfl := Except.ok.inj h
  rw [Json.toInt] at hn
  cases hinteger : Number.integer? f.1 with
  | none =>
    rw [hinteger] at hn
    cases hn
  | some m =>
    rw [hinteger] at hn
    obtain rfl := Except.ok.inj hn
    exact Number.not_isLengthy_of_integer? hinteger

theorem sublist_keys_ofOption (key : Text) (j? : Option Json) : (Fields.ofOption key j?).keys.Sublist [key] := by
  cases j? with
  | none => exact List.nil_sublist _
  | some j => exact List.Sublist.refl _

/-- Block hashes that are left out are none. -/
theorem hashes_read {e : Environment} (he : e.Plain) {fields : Fields} (h : hashFields e = .ok fields) :
    ∃ j?, fields = .ofOption "blockHashes" j? ∧
      ∃ hashes, (j?.getD (.object [])).fields = .ok hashes ∧ hashes.mapM blockHash = .ok e.blockHashes.entries := by
  unfold hashFields at h
  obtain ⟨hashes, hhashes, h⟩ := bind_eq_ok.1 h
  have hfields := Except.ok.inj h
  have hread : hashes.mapM blockHash = .ok e.blockHashes.entries :=
    mapM_inverse hhashes fun b hb f hf => blockHash_of_hashEntry (he.numbers b hb) hf
  -- The field is left out if there are no hashes, and then the default is read in its place.
  cases hashes with
  | nil => exact ⟨none, hfields.symm, [], rfl, hread⟩
  | cons f fs => exact ⟨some (.object (f :: fs)), hfields.symm, f :: fs, rfl, hread⟩

theorem isExtra_of_mem {key : Text} (h : key ∈ knownKeys) (value : Json) : isExtra (key, value) = false := by
  rw [isExtra, Text.isOneOf, List.contains_iff_mem.2 h, Bool.not_true]

theorem value?_extra {e : Environment} (he : e.Plain) {key : Text} (hkey : key ∈ knownKeys) :
    Fields.value? e.extra key = none := by
  rw [Fields.value?_eq_none_iff, Fields.keys, List.mem_map]
  rintro ⟨⟨k, value⟩, hf, rfl⟩
  have hextra := he.extra _ hf
  rw [isExtra_of_mem hkey] at hextra
  cases hextra

theorem value?_append_extra {e : Environment} (he : e.Plain) (known : Fields) {key : Text}
    (hkey : key ∈ knownKeys) : Fields.value? (known ++ e.extra) key = known.value? key := by
  rw [Fields.value?_append, value?_extra he hkey, Option.or_none]

theorem value?_filter_isExtra {key : Text} (hkey : key ∉ knownKeys) (fields : Fields) :
    Fields.value? (fields.filter isExtra) key = fields.value? key :=
  Fields.value?_filter (p := fun k => !k.isOneOf knownKeys) (by simpa [Text.isOneOf] using hkey) fields

theorem filter_known {fields : Fields} (h : ∀ key ∈ fields.keys, key ∈ knownKeys) : fields.filter isExtra = [] := by
  rw [List.filter_eq_nil_iff]
  rintro ⟨key, value⟩ hf
  rw [isExtra_of_mem (h key (List.mem_map_of_mem hf)) value]
  exact Bool.false_ne_true

def numbers (e : Environment) : List (Text × Option Int) :=
  [("currentCoinbase", some e.coinbase), ("currentGasLimit", some e.gasLimit), ("currentNumber", some e.number),
    ("currentTimestamp", some e.timestamp), ("currentDifficulty", e.difficulty), ("currentRandom", e.random),
    ("currentBaseFee", e.baseFee), ("previousHash", e.previousHash)]

theorem known_of_mem_numbers {e : Environment} {p : Text × Option Int} (h : p ∈ e.numbers) :
    p.1 ∈ knownKeys ∧ p.1 ≠ "blockHashes" := by
  simp only [numbers, List.mem_cons, List.not_mem_nil, or_false] at h
  rcases h with rfl | rfl | rfl | rfl | rfl | rfl | rfl | rfl <;> simp [knownKeys, requiredKeys]

/-- The block hashes among fields as they stand there, so that a block may have two of them. -/
def hashesIn (fields : Fields) : Except Fault (List (Int × Int)) :=
  (Json.object fields).fieldOr "blockHashes" (.object []) >>= Json.fields >>= (·.mapM blockHash)

/-- What fields tell of an environment that is read from them. -/
structure Tells (fields : Fields) (e : Environment) : Prop where
  numbers : ∀ p ∈ e.numbers, Hex.quantityAt? (.object fields) p.1 = .ok p.2
  blockHashes : ∃ hashes, hashesIn fields = .ok hashes ∧ e.blockHashes = .ofList hashes
  extra : e.extra = fields.filter isExtra

theorem ofJson_of_tells {e : Environment} {fields : Fields} (h : Tells fields e) : ofJson (.object fields) = .ok e := by
  have hnumbers := h.numbers
  simp only [numbers, List.forall_mem_cons] at hnumbers
  obtain ⟨hcoinbase, hgasLimit, hnumber, htimestamp, hdifficulty, hrandom, hbaseFee, hprevious, -⟩ := hnumbers
  replace hcoinbase := Hex.quantityAt_of_quantityAt? hcoinbase
  replace hgasLimit := Hex.quantityAt_of_quantityAt? hgasLimit
  replace hnumber := Hex.quantityAt_of_quantityAt? hnumber
  replace htimestamp := Hex.quantityAt_of_quantityAt? htimestamp
  -- What is read under a key stands there, so no required key is missing.
  have hmentions : ∀ key ∈ requiredKeys, (Json.object fields).mentions key = .ok true := by
    simp only [requiredKeys, List.forall_mem_cons]
    exact ⟨Hex.mentions_of_quantityAt hcoinbase, Hex.mentions_of_quantityAt hgasLimit,
      Hex.mentions_of_quantityAt hnumber, Hex.mentions_of_quantityAt htimestamp, nofun⟩
  have hmissing : (requiredKeys.filterM fun key => do return !(← (Json.object fields).mentions key)) = .ok [] := by
    have hnone : ∀ key ∈ requiredKeys, (do return !(← (Json.object fields).mentions key)) = .ok false := by
      intro key hkey
      rw [hmentions key hkey]
      rfl
    rw [filterM_eq_ok hnone, List.filter_false]
  obtain ⟨hashes, hin, hblocks⟩ := h.blockHashes
  obtain ⟨given, hgiven, hhashes⟩ := bind_eq_ok.1 hin
  obtain ⟨_, hj, hfields⟩ := bind_eq_ok.1 hgiven
  unfold ofJson
  rw [hmissing]
  simp only [ok_bind, List.isEmpty_nil, Bool.not_true, Bool.false_eq_true, if_false, hcoinbase, hgasLimit, hnumber,
    htimestamp, hdifficulty, hrandom, hbaseFee, hprevious, hj, hfields, hhashes, Json.fields_object, ← h.extra,
    ← hblocks]
  rfl

structure Part where
  key : Text
  encode : Int → Except Fault Text
  value : Option Int

namespace Part

def fields (p : Part) : Except Fault Fields := optional p.key p.encode p.value

def ReadsBack (p : Part) : Prop := ∀ n t, p.encode n = .ok t → Hex.quantity (.text t) = .ok n

/-- Each part is written under its key, and nothing under another one. -/
theorem fields_read {parts : List Part} {known : List Fields} (h : parts.mapM fields = .ok known)
    (hback : ∀ p ∈ parts, p.ReadsBack) (hnodup : (parts.map key).Nodup) :
    (Fields.keys known.flatten).Sublist (parts.map key) ∧
      ∀ p ∈ parts, readOption Hex.quantity (Fields.value? known.flatten p.key) = .ok p.value := by
  replace h := mapM_eq_ok.1 h
  induction h with
  | nil => exact ⟨List.Sublist.refl _, nofun⟩
  | @cons p fields parts known hp _ ih =>
    obtain ⟨hp', hback⟩ := List.forall_mem_cons.1 hback
    obtain ⟨hkey, hnodup⟩ := List.nodup_cons.1 hnodup
    obtain ⟨hkeys, hrest⟩ := ih hback hnodup
    obtain ⟨j?, rfl, hread⟩ := optional_read hp' hp
    -- A key is looked up in the first part, and in the others if it is not the key of that one.
    have hvalue : ∀ key : Text, Fields.value? (Fields.ofOption p.key j? :: known).flatten key =
        (if key = p.key then j? else none).or (Fields.value? known.flatten key) := by
      intro key
      rw [List.flatten_cons, Fields.value?_append, Fields.value?_ofOption]
    refine ⟨?_, List.forall_mem_cons.2 ⟨?_, fun q hq => ?_⟩⟩
    · rw [List.flatten_cons, Fields.keys, List.map_append, List.map_cons, ← List.singleton_append]
      exact (sublist_keys_ofOption p.key j?).append hkeys
    · have hnone : Fields.value? known.flatten p.key = none :=
        Fields.value?_eq_none_iff.2 fun hmem => hkey (hkeys.subset hmem)
      rw [hvalue, if_pos rfl, hnone, Option.or_none, hread]
    · have hne : q.key ≠ p.key := fun hsame => hkey (hsame ▸ List.mem_map_of_mem hq)
      rw [hvalue, if_neg hne, Option.none_or, hrest q hq]

end Part

def parts (e : Environment) : List Part :=
  [⟨"currentCoinbase", Hex.encodeAddress, some e.coinbase⟩, ⟨"currentGasLimit", Hex.encodeQuantity, some e.gasLimit⟩,
    ⟨"currentNumber", Hex.encodeQuantity, some e.number⟩, ⟨"currentTimestamp", Hex.encodeQuantity, some e.timestamp⟩,
    ⟨"currentDifficulty", Hex.encodeQuantity, e.difficulty⟩, ⟨"currentRandom", Hex.encodeWord32, e.random⟩,
    ⟨"currentBaseFee", Hex.encodeQuantity, e.baseFee⟩, ⟨"previousHash", Hex.encodeWord32, e.previousHash⟩]

theorem numbers_eq (e : Environment) : e.numbers = e.parts.map fun p => (p.key, p.value) := rfl

/-- An environment is written in three parts, one after the other. -/
theorem toFields_eq_ok {e : Environment} {fields : Fields} : e.toFields = .ok fields ↔
    ∃ known hashes, e.parts.mapM Part.fields = .ok known ∧ hashFields e = .ok hashes ∧
      fields = known.flatten ++ hashes ++ e.extra := by
  have hparts : e.toFields = (do
      let known ← e.parts.mapM Part.fields
      let hashes ← hashFields e
      return known.flatten ++ hashes ++ e.extra) := by
    simp only [toFields, parts, Part.fields, List.mapM_cons, List.mapM_nil, bind_assoc, pure_bind,
      List.flatten_cons, List.flatten_nil, List.append_nil, List.append_assoc]
  simp only [hparts, bind_eq_ok, pure_eq, Except.ok.injEq, exists_and_left, @eq_comm _ fields]

theorem readsBack_of_mem_parts {e : Environment} : ∀ p ∈ e.parts, p.ReadsBack := by
  have haddress : ∀ n t, Hex.encodeAddress n = .ok t → _ := fun _ _ => Hex.quantity_of_encodeWord
  have hquantity : ∀ n t, Hex.encodeQuantity n = .ok t → _ := fun _ _ => Hex.quantity_of_encodeQuantity
  have hword : ∀ n t, Hex.encodeWord32 n = .ok t → _ := fun _ _ => Hex.quantity_of_encodeWord
  simp only [parts, List.forall_mem_cons]
  exact ⟨haddress, hquantity, hquantity, hquantity, hquantity, hword, hquantity, hword, List.forall_mem_nil _⟩

theorem nodup_knownKeys : knownKeys.Nodup := by simp [knownKeys, requiredKeys]

theorem knownKeys_eq (e : Environment) : knownKeys = e.numbers.map Prod.fst ++ [Text.ofString "blockHashes"] := rfl

theorem numbers_read {e : Environment} {known : List Fields} (h : e.parts.mapM Part.fields = .ok known) :
    (Fields.keys known.flatten).Sublist (e.numbers.map Prod.fst) ∧
      ∀ p ∈ e.numbers, readOption Hex.quantity (Fields.value? known.flatten p.1) = .ok p.2 := by
  have hnodup : (e.parts.map Part.key).Nodup := (List.nodup_append.1 (knownKeys_eq e ▸ nodup_knownKeys)).1
  obtain ⟨hkeys, hread⟩ := Part.fields_read h readsBack_of_mem_parts hnodup
  rw [numbers_eq, List.map_map, List.forall_mem_map]
  exact ⟨hkeys, hread⟩

theorem value?_hashes_of_numbers {e : Environment} {known : List Fields} (h : e.parts.mapM Part.fields = .ok known) :
    Fields.value? known.flatten "blockHashes" = none := by
  refine Fields.value?_eq_none_iff.2 fun hkey => ?_
  obtain ⟨p, hp, hsame⟩ := List.mem_map.1 ((numbers_read h).1.subset hkey)
  exact (known_of_mem_numbers hp).2 hsame

theorem tells_of_toFields {e : Environment} {fields : Fields} (he : e.Plain) (h : e.toFields = .ok fields) :
    Tells fields e := by
  obtain ⟨known, _, hknown, hhashes, rfl⟩ := toFields_eq_ok.1 h
  obtain ⟨hkeys, hread⟩ := numbers_read hknown
  obtain ⟨hashes?, rfl, hashes, hfields, hblocks⟩ := hashes_read he hhashes
  refine ⟨fun p hp => ?_, ⟨e.blockHashes.entries, ?_, (Table.ofList_entries _).symm⟩, ?_⟩
  · obtain ⟨hkey, hne⟩ := known_of_mem_numbers hp
    rw [Hex.quantityAt?_object, value?_append_extra he _ hkey, Fields.value?_append, Fields.value?_ofOption,
      if_neg hne, Option.or_none, hread p hp]
  · rw [hashesIn, Json.fieldOr_object, value?_append_extra he _ (by simp [knownKeys]), Fields.value?_append,
      value?_hashes_of_numbers hknown, Fields.value?_ofOption, if_pos rfl, Option.none_or, ok_bind, hfields, ok_bind,
      hblocks]
  · have hfirst : ∀ key ∈ Fields.keys (known.flatten ++ Fields.ofOption "blockHashes" hashes?), key ∈ knownKeys := by
      rw [Fields.keys, List.map_append, knownKeys_eq e]
      exact (hkeys.append (sublist_keys_ofOption _ hashes?)).subset
    rw [List.filter_append, filter_known hfirst, List.nil_append, List.filter_eq_self.2 he.extra]

theorem ofJson_of_toJson {e : Environment} {j : Json} (he : e.Plain) (h : e.toJson = .ok j) :
    ofJson j = .ok e := by
  obtain ⟨fields, hfields, h⟩ := bind_eq_ok.1 h
  obtain rfl := Except.ok.inj h
  exact ofJson_of_tells (tells_of_toFields he hfields)

theorem tells_of_ofJson {e : Environment} {j : Json} (h : ofJson j = .ok e) :
    ∃ fields, j = .object fields ∧ Tells fields e := by
  unfold ofJson at h
  obtain ⟨missing, -, h⟩ := bind_eq_ok.1 h
  split at h
  · cases h
  · obtain ⟨coinbase, hcoinbase, h⟩ := bind_eq_ok.1 h
    obtain ⟨gasLimit, hgasLimit, h⟩ := bind_eq_ok.1 h
    obtain ⟨number, hnumber, h⟩ := bind_eq_ok.1 h
    obtain ⟨timestamp, htimestamp, h⟩ := bind_eq_ok.1 h
    obtain ⟨difficulty, hdifficulty, h⟩ := bind_eq_ok.1 h
    obtain ⟨random, hrandom, h⟩ := bind_eq_ok.1 h
    obtain ⟨baseFee, hbaseFee, h⟩ := bind_eq_ok.1 h
    obtain ⟨previousHash, hprevious, h⟩ := bind_eq_ok.1 h
    obtain ⟨given, hgiven, h⟩ := bind_eq_ok.1 h
    obtain ⟨hashes, hhashes, h⟩ := bind_eq_ok.1 h
    obtain ⟨fields, hfields, h⟩ := bind_eq_ok.1 h
    obtain rfl := Except.ok.inj h
    obtain rfl := Json.fields_eq_ok.1 hfields
    refine ⟨fields, rfl, ?_, ⟨hashes, bind_eq_ok.2 ⟨given, hgiven, hhashes⟩, rfl⟩, rfl⟩
    simp only [numbers, List.forall_mem_cons]
    exact ⟨Hex.quantityAt?_of_quantityAt hcoinbase, Hex.quantityAt?_of_quantityAt hgasLimit,
      Hex.quantityAt?_of_quantityAt hnumber, Hex.quantityAt?_of_quantityAt htimestamp, hdifficulty, hrandom, hbaseFee,
      hprevious, nofun⟩

/-- Each environment that is read is such a one. -/
theorem plain_of_ofJson {e : Environment} {j : Json} (h : ofJson j = .ok e) : e.Plain := by
  obtain ⟨fields, -, htells⟩ := tells_of_ofJson h
  obtain ⟨hashes, hhashes, hblocks⟩ := htells.blockHashes
  obtain ⟨given, -, hread⟩ := bind_eq_ok.1 hhashes
  refine ⟨fun b hb => ?_, fun f hf => ?_⟩
  · rw [hblocks] at hb
    obtain ⟨f, -, hf⟩ := exists_of_mem_mapM hread (Table.mem_of_mem_ofList hb)
    exact not_isLengthy_of_blockHash hf
  · rw [htells.extra] at hf
    exact (List.mem_filter.1 hf).2

end Environment

end CallTrace
