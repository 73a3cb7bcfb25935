import CallTrace.Proofs.Environment.Keeping
import CallTrace.Proofs.Json.Proper
import Mathlib.Data.List.Nodup
import Mathlib.Data.List.Perm.Basic

namespace CallTrace
open Attempt

namespace Json

inductive Alike : Json → Json → Prop
  | refl (j : Json) : Alike j j
  | object {fs gs : Fields} :
    (∀ key, Option.Rel Alike (fs.value? key) (gs.value? key)) → Alike (.object fs) (.object gs)

theorem Alike.option (j? : Option Json) : Option.Rel Alike j? j? := by
  cases j? with
  | none => exact .none
  | some j => exact .some (.refl j)

end Json

namespace Fields

theorem value?_putNew (key : Text) (value : Json) (fields : Fields) (k : Text) :
    (fields.putNew key value).value? k = if k = key then (fields.value? key).or (some value) else fields.value? k := by
  unfold putNew has
  cases h : fields.value? key with
  | some v =>
    rw [if_pos (by rfl)]
    split
    · rename_i hk
      rw [hk, h]
      rfl
    · rfl
  | none =>
    rw [if_neg (by simp), value?_append, value?_cons, value?_nil]
    split
    · rename_i hk
      rw [hk, h]
    · rw [Option.or_none]

theorem nodup_keys_putNew {fields : Fields} (h : fields.keys.Nodup) (key : Text) (value : Json) :
    (fields.putNew key value).keys.Nodup := by
  unfold putNew has
  split
  · exact h
  · rename_i hnone
    have hkey : key ∉ fields.keys := value?_eq_none_iff.1 (by simpa using hnone)
    rw [keys, List.map_append]
    refine List.nodup_append.2 ⟨h, List.nodup_singleton key, ?_⟩
    rintro k hk _ hl rfl
    obtain rfl := List.mem_singleton.1 hl
    exact hkey hk

theorem filter_put {p : Text × Json → Bool} {key : Text} (h : ∀ v, p (key, v) = false) (value : Json)
    (fields : Fields) : (fields.put key value).filter p = fields.filter p := by
  induction fields with
  | nil => simp [put, h]
  | cons f fields ih =>
    obtain ⟨k, v⟩ := f
    rw [put]
    split
    · rename_i hk
      simp [hk, h]
    · rw [List.filter_cons, List.filter_cons, ih]

/-- Where no key stands twice, the order of the fields does not matter to what they answer. -/
theorem value?_of_perm {fields more : Fields} (h : fields.Perm more) (hnodup : fields.keys.Nodup) (key : Text) :
    fields.value? key = more.value? key := by
  have hmore : more.keys.Nodup := (h.map Prod.fst).nodup_iff.1 hnodup
  refine Option.ext fun value => ?_
  exact ⟨fun hv => lookup_of_mem hmore (h.mem_iff.1 (mem_of_lookup hv)),
    fun hv => lookup_of_mem hnodup (h.mem_iff.2 (mem_of_lookup hv))⟩

end Fields

theorem Number.ofInt_inj {m n : Int} (hm : isLengthy m = false) (hn : isLengthy n = false) :
    Text.ofInt m = Text.ofInt n ↔ m = n := by
  refine ⟨fun h => ?_, congrArg _⟩
  have hread := integer?_ofInt hm
  rw [h, integer?_ofInt hn] at hread
  exact (Option.some.inj hread).symm

/-- A map has the entries that it is made of, if none of them takes the place of another. -/
theorem Table.entries_ofList_perm {α : Type u} {es : List (Int × α)} (h : (es.map Prod.fst).Nodup) :
    (ofList es).entries.Perm es :=
  (List.perm_ext_iff_of_nodup (nodup_entries _) (List.Nodup.of_map _ h)).2 (mem_ofList h)

namespace Environment

def newParent (e : Environment) : List (Int × Int) :=
  match e.previousHash with
  | some hash => if 0 < e.number ∧ e.blockHashes.find? (e.number - 1) = none then [(e.number - 1, hash)] else []
  | none => []

def hashField (hashes : Fields) : Option Json := if hashes.isEmpty then none else some (.object hashes)

/-- What is written for the tool against what is written of the environment: it has the same fields, those of the block
hashes and of the root of the beacon chain apart. -/
structure Extends (e : Environment) (plain tool : Fields) : Prop where
  others : ∀ key : Text, key ≠ "blockHashes" → key ≠ "parentBeaconBlockRoot" → tool.value? key = plain.value? key
  root : tool.value? "parentBeaconBlockRoot" =
    (plain.value? "parentBeaconBlockRoot").or (plain.value? "currentBeaconRoot")
  hashes : ∃ given added : Fields, e.blockHashes.entries.mapM hashEntry = .ok given ∧
    e.newParent.mapM hashEntry = .ok added ∧ (Fields.keys (given ++ added)).Nodup ∧
    plain.value? "blockHashes" = hashField given ∧ tool.value? "blockHashes" = hashField (given ++ added)
  nodup : plain.keys.Nodup → tool.keys.Nodup

/-- The environment is written for the tool, with no more than that added, and what is read from there is written in the
same way again. -/
def IsExtended (e : Environment) (plain : Fields) : Prop :=
  ∃ tool, e.toToolJson = .ok (.object tool) ∧ e.Extends plain tool ∧
    ∃ e' again, ofJson (.object tool) = .ok e' ∧ e'.toToolJson = .ok again ∧ again.Alike (.object tool)

/-- The number of the block before has to be written, and has too many digits for that. -/
def IsParentLengthy (e : Environment) : Prop :=
  e.previousHash.isSome = true ∧ 0 < e.number ∧ Number.isLengthy (e.number - 1) = true

def completed (e : Environment) : Environment :=
  { e with blockHashes := .ofList (e.blockHashes.entries ++ e.newParent), extra := withBeaconRoot e.extra }

section
variable {e : Environment} {fields : Fields}

theorem ne_of_mem_knownKeys {key : Text} (h : key ∈ knownKeys) : key ≠ "parentBeaconBlockRoot" := by
  rintro rfl
  revert h
  simp [knownKeys, requiredKeys]

theorem mem_newParent {b : Int × Int} : b ∈ e.newParent ↔ e.previousHash = some b.2 ∧ 0 < e.number ∧
    b.1 = e.number - 1 ∧ e.blockHashes.find? (e.number - 1) = none := by
  obtain ⟨number, hash⟩ := b
  unfold newParent
  cases e.previousHash with
  | none => simp
  | some h =>
    dsimp only
    split
    · rename_i hadd
      simp [hadd, and_comm, eq_comm]
    · rename_i hadd
      rw [not_and] at hadd
      simp only [List.not_mem_nil, false_iff]
      rintro ⟨-, hpos, -, hnone⟩
      exact hadd hpos hnone

theorem nodup_blocks (e : Environment) : ((e.blockHashes.entries ++ e.newParent).map Prod.fst).Nodup := by
  rw [List.map_append, List.nodup_append]
  refine ⟨Table.nodup_keys _, ?_, ?_⟩
  · unfold newParent
    split
    · split <;> simp
    · simp
  · rintro number hnumber _ hparent rfl
    obtain ⟨⟨_, hash⟩, hb, rfl⟩ := List.mem_map.1 hnumber
    obtain ⟨p, hp, hkey⟩ := List.mem_map.1 hparent
    obtain ⟨-, -, hparent, hnone⟩ := mem_newParent.1 hp
    rw [← hparent, hkey, Table.mem_entries_iff.1 hb] at hnone
    cases hnone

/-- The numbers of all blocks whose hashes are told can be written. -/
theorem not_isLengthy_blocks (he : e.Plain) (hparent : ¬ e.IsParentLengthy) :
    ∀ b ∈ e.blockHashes.entries ++ e.newParent, Number.isLengthy b.1 = false := by
  rw [List.forall_mem_append]
  refine ⟨he.numbers, fun b hb => ?_⟩
  obtain ⟨hhash, hpos, hnumber, -⟩ := mem_newParent.1 hb
  rw [hnumber]
  by_contra hlengthy
  exact hparent ⟨by rw [hhash]; rfl, hpos, by simpa using hlengthy⟩

theorem keys_of_hashEntry {es : List (Int × Int)} {hashes : Fields} (h : es.mapM hashEntry = .ok hashes) :
    hashes.keys = es.map fun b => Text.ofInt b.1 := by
  refine map_of_mapM h fun b f hf => ?_
  obtain ⟨value, -, hf⟩ := bind_eq_ok.1 hf
  obtain rfl := Except.ok.inj hf
  rfl

theorem nodup_keys_of_hashEntry {es : List (Int × Int)} {hashes : Fields} (h : es.mapM hashEntry = .ok hashes)
    (hnodup : (es.map Prod.fst).Nodup) (hshort : ∀ b ∈ es, Number.isLengthy b.1 = false) : hashes.keys.Nodup := by
  have hkeys : hashes.keys = (es.map Prod.fst).map Text.ofInt := by
    rw [keys_of_hashEntry h, List.map_map]
    rfl
  rw [hkeys]
  refine hnodup.map_on fun m hm n hn => ?_
  obtain ⟨b, hb, rfl⟩ := List.mem_map.1 hm
  obtain ⟨c, hc, rfl⟩ := List.mem_map.1 hn
  exact (Number.ofInt_inj (hshort b hb) (hshort c hc)).1

theorem hashFields_eq_ok {hashes : Fields} : hashFields e = .ok hashes ↔
    ∃ given, e.blockHashes.entries.mapM hashEntry = .ok given ∧ hashes = .ofOption "blockHashes" (hashField given) := by
  have hfield : ∀ given : Fields, (if given.isEmpty then [] else [("blockHashes", .object given)] : Fields) =
      .ofOption "blockHashes" (hashField given) := by
    intro given
    unfold hashField
    split <;> rfl
  simp only [hashFields, bind_eq_ok, pure_eq, Except.ok.injEq, hfield, @eq_comm _ hashes]

/-- What is written of an environment answers for its hashes, its other numbers, and what it keeps besides. -/
theorem value?_of_toFields (he : e.Plain) (h : e.toFields = .ok fields) :
    ∃ known given, e.parts.mapM Part.fields = .ok known ∧ e.blockHashes.entries.mapM hashEntry = .ok given ∧
      fields.value? "blockHashes" = hashField given ∧ ∀ key : Text, key ≠ "blockHashes" →
        fields.value? key = (Fields.value? known.flatten key).or (Fields.value? e.extra key) := by
  obtain ⟨known, _, hknown, hhashes, rfl⟩ := toFields_eq_ok.1 h
  obtain ⟨given, hgiven, rfl⟩ := hashFields_eq_ok.1 hhashes
  refine ⟨known, given, hknown, hgiven, ?_, fun key hkey => ?_⟩
  · rw [value?_append_extra he _ (by simp [knownKeys]), Fields.value?_append, value?_hashes_of_numbers hknown,
      Fields.value?_ofOption, if_pos rfl, Option.none_or]
  · rw [Fields.value?_append, Fields.value?_append, Fields.value?_ofOption, if_neg hkey, Option.or_none]

/-- Where an environment is written, the hash of the block before is. -/
theorem exists_word_of_toFields {hash : Int} (h : e.toFields = .ok fields) (hhash : e.previousHash = some hash) :
    ∃ t, Hex.encodeWord32 hash = .ok t := by
  obtain ⟨known, -, hknown, -⟩ := toFields_eq_ok.1 h
  have hpart : ⟨"previousHash", Hex.encodeWord32, some hash⟩ ∈ e.parts := by simp [parts, hhash]
  obtain ⟨_, -, hwritten⟩ := exists_result_of_mem hknown hpart
  obtain ⟨t, ht, -⟩ := bind_eq_ok.1 hwritten
  exact ⟨t, ht⟩

def withHashes (hashes fields : Fields) : Fields :=
  if hashes.isEmpty then fields else fields.put "blockHashes" (.object hashes)

/-- The hash of the block before is added to the hashes that are written. -/
theorem withParentHash_of_value? {given : Fields} (h : fields.value? "blockHashes" = hashField given) {hash : Int}
    (hhash : e.previousHash = some hash) (hpos : 0 < e.number) : e.withParentHash fields = (do
      let parent ← Number.decimal (e.number - 1)
      let t ← Hex.encodeWord32 hash
      return fields.put "blockHashes" (.object (given.putNew parent (.text t)))) := by
  unfold withParentHash
  rw [hhash]
  dsimp only
  rw [if_pos hpos, h, hashField]
  by_cases hempty : given.isEmpty = true
  · obtain rfl := List.isEmpty_iff.1 hempty
    simp only [List.isEmpty_nil, if_true, ok_bind]
  · simp only [if_neg hempty, Json.fields_object, ok_bind]

theorem withHashes_of_value? {given : Fields} (h : fields.value? "blockHashes" = hashField given) :
    withHashes given fields = fields := by
  unfold withHashes
  split
  · rfl
  · rename_i hne
    rw [hashField, if_neg hne] at h
    exact Fields.put_of_value? h

/-- A block has a hash under its number just if one is told of it. -/
theorem has_hashes_iff (he : e.Plain) {given : Fields} (hgiven : e.blockHashes.entries.mapM hashEntry = .ok given)
    {number : Int} (hshort : Number.isLengthy number = false) :
    given.has (Text.ofInt number) = true ↔ e.blockHashes.find? number ≠ none := by
  have hmem : given.has (Text.ofInt number) = true ↔ Text.ofInt number ∈ given.keys := by
    rw [Fields.has, ← not_iff_not, ← Fields.value?_eq_none_iff]
    simp
  rw [hmem, keys_of_hashEntry hgiven, List.mem_map, Option.ne_none_iff_exists']
  -- Numbers that are short enough to be written are written differently if they differ.
  constructor
  · rintro ⟨b, hb, hsame⟩
    obtain rfl := (Number.ofInt_inj (he.numbers b hb) hshort).1 hsame
    exact ⟨b.2, Table.mem_entries_iff.1 hb⟩
  · rintro ⟨hash, hfind⟩
    exact ⟨(number, hash), Table.mem_entries_iff.2 hfind, rfl⟩

/-- Nothing is added where no hash of a block before is told. -/
theorem withParentHash_of_untold (h : ∀ hash ∈ e.previousHash, ¬ 0 < e.number) (fields : Fields) :
    e.newParent = [] ∧ e.withParentHash fields = .ok fields := by
  unfold newParent withParentHash
  cases hprevious : e.previousHash with
  | none => exact ⟨rfl, rfl⟩
  | some hash =>
    have hpos := h hash hprevious
    exact ⟨if_neg fun hadd => hpos hadd.1, if_neg hpos⟩

section
variable {given : Fields} {hash : Int} {t : Text}

/-- A hash that is not among the others comes behind them. -/
theorem withParentHash_of_missing (he : e.Plain) (hgiven : e.blockHashes.entries.mapM hashEntry = .ok given)
    (hvalue : fields.value? "blockHashes" = hashField given) (hhash : e.previousHash = some hash) (hpos : 0 < e.number)
    (hshort : Number.isLengthy (e.number - 1) = false) (ht : Hex.encodeWord32 hash = .ok t)
    (hnone : e.blockHashes.find? (e.number - 1) = none) : e.newParent = [(e.number - 1, hash)] ∧
      e.withParentHash fields =
        .ok (fields.put "blockHashes" (.object (given ++ [(Text.ofInt (e.number - 1), .text t)]))) := by
  have hhas : ¬ given.has (Text.ofInt (e.number - 1)) = true :=
    fun hhas => (has_hashes_iff he hgiven hshort).1 hhas hnone
  constructor
  · rw [newParent, hhash]
    exact if_pos ⟨hpos, hnone⟩
  · rw [withParentHash_of_value? hvalue hhash hpos, Number.decimal_of_not_isLengthy hshort, ok_bind, ht, ok_bind,
      Fields.putNew, if_neg hhas]
    rfl

theorem withParentHash_of_present (he : e.Plain) (hgiven : e.blockHashes.entries.mapM hashEntry = .ok given)
    (hvalue : fields.value? "blockHashes" = hashField given) (hhash : e.previousHash = some hash) (hpos : 0 < e.number)
    (hshort : Number.isLengthy (e.number - 1) = false) (ht : Hex.encodeWord32 hash = .ok t)
    (hsome : e.blockHashes.find? (e.number - 1) ≠ none) : e.newParent = [] ∧ e.withParentHash fields = .ok fields := by
  have hhas := (has_hashes_iff he hgiven hshort).2 hsome
  constructor
  · rw [newParent, hhash]
    exact if_neg fun hadd => hsome hadd.2
  · have hput := withParentHash_of_value? hvalue hhash hpos
    have hsame : fields.put "blockHashes" (.object given) = fields := by
      have hne : ¬ given.isEmpty = true := by
        intro hempty
        rw [List.isEmpty_iff.1 hempty] at hhas
        exact absurd hhas (by simp [Fields.has])
      rw [hashField, if_neg hne] at hvalue
      exact Fields.put_of_value? hvalue
    rw [hput, Number.decimal_of_not_isLengthy hshort, ok_bind, ht, ok_bind, Fields.putNew, if_pos hhas, hsame]
    rfl

end

theorem withParentHash_eq (he : e.Plain) (hparent : ¬ e.IsParentLengthy) {given : Fields}
    (hgiven : e.blockHashes.entries.mapM hashEntry = .ok given) (hvalue : fields.value? "blockHashes" = hashField given)
    (hword : ∀ hash ∈ e.previousHash, ∃ t, Hex.encodeWord32 hash = .ok t) : ∃ added,
      e.newParent.mapM hashEntry = .ok added ∧
      e.withParentHash fields = .ok (withHashes (given ++ added) fields) := by
  have hplain : withHashes (given ++ []) fields = fields := by
    rw [List.append_nil, withHashes_of_value? hvalue]
  by_cases huntold : ∀ hash ∈ e.previousHash, ¬ 0 < e.number
  · obtain ⟨hnew, hsame⟩ := withParentHash_of_untold huntold fields
    exact ⟨[], by rw [hnew]; rfl, by rw [hsame, hplain]⟩
  · push Not at huntold
    obtain ⟨hash, hhash, hpos⟩ := huntold
    obtain ⟨t, ht⟩ := hword hash hhash
    have hshort : Number.isLengthy (e.number - 1) = false :=
      Bool.eq_false_iff.2 fun hlengthy => hparent ⟨Option.isSome_iff_exists.2 ⟨hash, hhash⟩, hpos, hlengthy⟩
    by_cases hnone : e.blockHashes.find? (e.number - 1) = none
    · obtain ⟨hnew, hput⟩ := withParentHash_of_missing he hgiven hvalue hhash hpos hshort ht hnone
      refine ⟨[(Text.ofInt (e.number - 1), .text t)], ?_, ?_⟩
      · rw [hnew, List.mapM_cons, hashEntry, ht]
        rfl
      · rw [hput, withHashes, if_neg (by simp)]
    · obtain ⟨hnew, hsame⟩ := withParentHash_of_present he hgiven hvalue hhash hpos hshort ht hnone
      exact ⟨[], by rw [hnew]; rfl, by rw [hsame, hplain]⟩

theorem value?_withHashes {given : Fields} (h : fields.value? "blockHashes" = hashField given) (added : Fields)
    (key : Text) : (withHashes (given ++ added) fields).value? key =
      if key = "blockHashes" then hashField (given ++ added) else fields.value? key := by
  unfold withHashes hashField
  by_cases hempty : (given ++ added).isEmpty = true
  · obtain ⟨rfl, rfl⟩ := List.append_eq_nil_iff.1 (List.isEmpty_iff.1 hempty)
    rw [if_pos hempty, if_pos hempty]
    split
    · rename_i hkey
      rw [hkey, h]
      rfl
    · rfl
  · rw [if_neg hempty, if_neg hempty]
    split
    · rename_i hkey
      rw [hkey, Fields.value?_put_self]
    · rename_i hkey
      rw [Fields.value?_put_ne hkey]

theorem value?_withBeaconRoot (fields : Fields) (key : Text) : (withBeaconRoot fields).value? key =
    if key = "parentBeaconBlockRoot" then
      (fields.value? "parentBeaconBlockRoot").or (fields.value? "currentBeaconRoot")
    else fields.value? key := by
  unfold withBeaconRoot
  cases h : fields.value? "currentBeaconRoot" with
  | none =>
    dsimp only
    rw [Option.or_none]
    split
    · rename_i hkey
      rw [hkey]
    · rfl
  | some root => rw [Fields.value?_putNew]

theorem nodup_keys_withBeaconRoot (h : fields.keys.Nodup) : (withBeaconRoot fields).keys.Nodup := by
  unfold withBeaconRoot
  split
  · exact Fields.nodup_keys_putNew h _ _
  · exact h

theorem nodup_keys_withHashes (h : fields.keys.Nodup) (hashes : Fields) : (withHashes hashes fields).keys.Nodup := by
  unfold withHashes
  split
  · exact h
  · exact Fields.nodup_keys_put h _ _

/-- What is kept besides is extended by the root as all of the fields are. -/
theorem filter_withBeaconRoot (fields : Fields) :
    (withBeaconRoot fields).filter isExtra = withBeaconRoot (fields.filter isExtra) := by
  unfold withBeaconRoot
  rw [value?_filter_isExtra (by simp [knownKeys, requiredKeys])]
  split
  · rename_i root _
    have hextra : isExtra ("parentBeaconBlockRoot", root) = true := by
      simp [isExtra, Text.isOneOf, knownKeys, requiredKeys]
    unfold Fields.putNew Fields.has
    rw [value?_filter_isExtra (by simp [knownKeys, requiredKeys])]
    split
    · rfl
    · rw [List.filter_append, List.filter_cons_of_pos hextra, List.filter_nil]
  · rfl

theorem filter_withHashes (hashes fields : Fields) :
    (withHashes hashes fields).filter isExtra = fields.filter isExtra := by
  unfold withHashes
  split
  · rfl
  · exact Fields.filter_put (isExtra_of_mem (by simp [knownKeys])) _ fields

/-- An environment that is written, and whose block before has a number that can be, is written for the tool. -/
theorem toToolJson_of_toFields (he : e.Plain) (hparent : ¬ e.IsParentLengthy) (h : e.toFields = .ok fields) :
    ∃ tool, e.toToolJson = .ok (.object tool) ∧ e.Extends fields tool ∧
      tool.filter isExtra = withBeaconRoot e.extra := by
  obtain ⟨_, given, -, hgiven, hvalue, -⟩ := value?_of_toFields he h
  obtain ⟨added, hadded, hwith⟩ := withParentHash_eq he hparent hgiven hvalue
    fun hash hhash => exists_word_of_toFields h hhash
  refine ⟨withBeaconRoot (withHashes (given ++ added) fields), ?_,
    ⟨fun key hhashes hroot => ?_, ?_, ?_, fun hnodup => ?_⟩, ?_⟩
  · rw [toToolJson, h, ok_bind, hwith]
    rfl
  · rw [value?_withBeaconRoot, if_neg hroot, value?_withHashes hvalue, if_neg hhashes]
  · rw [value?_withBeaconRoot, if_pos rfl, value?_withHashes hvalue, value?_withHashes hvalue, if_neg (by simp),
      if_neg (by simp)]
  · refine ⟨given, added, hgiven, hadded, ?_, hvalue, ?_⟩
    · exact nodup_keys_of_hashEntry (mapM_append_eq_ok hgiven hadded) e.nodup_blocks (not_isLengthy_blocks he hparent)
    · rw [value?_withBeaconRoot, if_neg (by simp), value?_withHashes hvalue, if_pos rfl]
  · exact nodup_keys_withBeaconRoot (nodup_keys_withHashes hnodup _)
  · rw [filter_withBeaconRoot, filter_withHashes, ← (tells_of_toFields he h).extra]

/-- Where the number of the block before cannot be written, nothing is. -/
theorem toToolJson_of_isParentLengthy (he : e.Plain) (hparent : e.IsParentLengthy) (h : e.toFields = .ok fields) :
    e.toToolJson = .error .unwritableNumber := by
  obtain ⟨hsome, hpos, hlengthy⟩ := hparent
  obtain ⟨hash, hhash⟩ := Option.isSome_iff_exists.1 hsome
  obtain ⟨_, given, -, hgiven, hvalue, -⟩ := value?_of_toFields he h
  rw [toToolJson, h, ok_bind, withParentHash_of_value? hvalue hhash hpos, Number.decimal, if_pos hlengthy]
  rfl

/-- What is written for the tool tells of the environment with all that was added. -/
theorem tells_of_extends (he : e.Plain) (hparent : ¬ e.IsParentLengthy) (h : e.toFields = .ok fields) {tool : Fields}
    (htool : e.Extends fields tool) (hextra : tool.filter isExtra = withBeaconRoot e.extra) :
    Tells tool e.completed := by
  have hplain := tells_of_toFields he h
  refine ⟨fun p hp => ?_, ⟨e.blockHashes.entries ++ e.newParent, ?_, rfl⟩, hextra.symm⟩
  · obtain ⟨hknown, hhashes⟩ := known_of_mem_numbers (e := e) hp
    rw [Hex.quantityAt?_object, htool.others p.1 hhashes (ne_of_mem_knownKeys hknown),
      ← Hex.quantityAt?_object]
    exact hplain.numbers p hp
  · obtain ⟨given, added, hgiven, hadded, -, -, hvalue⟩ := htool.hashes
    have hfields : ((hashField (given ++ added)).getD (.object [])).fields = .ok (given ++ added) := by
      unfold hashField
      split
      · rename_i hempty
        rw [List.isEmpty_iff.1 hempty]
        rfl
      · rfl
    rw [hashesIn, Json.fieldOr_object, ok_bind, hvalue, hfields, ok_bind]
    exact mapM_inverse (mapM_append_eq_ok hgiven hadded) fun b hb f hf =>
      blockHash_of_hashEntry (not_isLengthy_blocks he hparent b hb) hf

/-- Nothing is left to be added. -/
theorem newParent_completed (e : Environment) : e.completed.newParent = [] := by
  rw [List.eq_nil_iff_forall_not_mem]
  intro b hb
  obtain ⟨hhash, hpos, hnumber, hnone⟩ := mem_newParent.1 hb
  -- A hash that is missing now was missing before, and then it is the very one that was added.
  have hmissing : ∀ hash, (e.number - 1, hash) ∉ e.blockHashes.entries ++ e.newParent := by
    intro hash hmem
    rw [← Table.mem_ofList e.nodup_blocks, Table.mem_entries_iff] at hmem
    exact absurd (hmem.symm.trans hnone) nofun
  have hfind : e.blockHashes.find? (e.number - 1) = none := by
    by_contra hsome
    obtain ⟨hash, hfind⟩ := Option.ne_none_iff_exists'.1 hsome
    exact hmissing hash (List.mem_append_left _ (Table.mem_entries_iff.2 hfind))
  exact hmissing b.2 (List.mem_append_right _ (mem_newParent.2 ⟨hhash, hpos, rfl, hfind⟩))

theorem withBeaconRoot_withBeaconRoot (fields : Fields) :
    withBeaconRoot (withBeaconRoot fields) = withBeaconRoot fields := by
  have hcurrent := value?_withBeaconRoot fields "currentBeaconRoot"
  rw [if_neg (by simp)] at hcurrent
  have hroot := value?_withBeaconRoot fields "parentBeaconBlockRoot"
  rw [if_pos rfl] at hroot
  conv_lhs => rw [withBeaconRoot]
  rw [hcurrent]
  split
  · rename_i root h
    rw [h] at hroot
    rw [Fields.putNew, Fields.has, hroot, if_pos (by simp)]
  · rfl

theorem completed_completed (e : Environment) : e.completed.completed = e.completed := by
  have hhashes : Table.ofList (e.completed.blockHashes.entries ++ e.completed.newParent) = e.completed.blockHashes := by
    rw [newParent_completed, List.append_nil, Table.ofList_entries]
  have hextra : withBeaconRoot e.completed.extra = e.completed.extra := withBeaconRoot_withBeaconRoot e.extra
  conv_lhs => rw [completed, hhashes, hextra]

/-- With what was added the environment can be written too, its block hashes in order. -/
theorem exists_toFields_completed (h : e.toFields = .ok fields) {given added : Fields}
    (hgiven : e.blockHashes.entries.mapM hashEntry = .ok given) (hadded : e.newParent.mapM hashEntry = .ok added) :
    ∃ more sorted, e.completed.toFields = .ok more ∧ e.completed.blockHashes.entries.mapM hashEntry = .ok sorted ∧
      (given ++ added).Perm sorted := by
  obtain ⟨known, _, hknown, -⟩ := toFields_eq_ok.1 h
  obtain ⟨sorted, hsorted, hperm⟩ := List.perm_comp_forall₂ (Table.entries_ofList_perm e.nodup_blocks)
    (mapM_eq_ok.1 (mapM_append_eq_ok hgiven hadded))
  have hentries : e.completed.blockHashes.entries.mapM hashEntry = .ok sorted := mapM_eq_ok.2 hsorted
  exact ⟨_, sorted, toFields_eq_ok.2 ⟨known, _, hknown, hashFields_eq_ok.2 ⟨sorted, hentries, rfl⟩, rfl⟩, hentries,
    hperm.symm⟩

theorem hashField_alike {hashes sorted : Fields} (h : hashes.Perm sorted) (hnodup : hashes.keys.Nodup) :
    Option.Rel Json.Alike (hashField sorted) (hashField hashes) := by
  unfold hashField
  rw [h.isEmpty_eq]
  split
  · exact .none
  · refine .some (.object fun key => ?_)
    rw [Fields.value?_of_perm h hnodup]
    exact Json.Alike.option _

theorem value?_toFields_completed (he : e.Plain) (hplain : e.completed.Plain) (h : e.toFields = .ok fields)
    {more : Fields} (hmore : e.completed.toFields = .ok more) {key : Text} (hknown : key ∈ knownKeys)
    (hhashes : key ≠ "blockHashes") : more.value? key = fields.value? key := by
  obtain ⟨known, _, hnumbers, -, -, hvalue⟩ := value?_of_toFields he h
  obtain ⟨known', _, hnumbers', -, -, hmoreValue⟩ := value?_of_toFields hplain hmore
  obtain rfl : known = known' := Except.ok.inj (hnumbers.symm.trans hnumbers')
  rw [hvalue key hhashes, hmoreValue key hhashes, value?_extra he hknown, value?_extra hplain hknown]

/-- What is read back is written for the tool in the same way again. -/
theorem toToolJson_completed (he : e.Plain) (hplain : e.completed.Plain) (hparent : ¬ e.IsParentLengthy)
    (h : e.toFields = .ok fields) {tool : Fields} (hextends : e.Extends fields tool) (htells : Tells tool e.completed) :
    ∃ again, e.completed.toToolJson = .ok again ∧ again.Alike (.object tool) := by
  obtain ⟨given, added, hgiven, hadded, hnodup, -, hvalue⟩ := hextends.hashes
  obtain ⟨more, sorted, hmore, hsorted, hperm⟩ := exists_toFields_completed h hgiven hadded
  -- It has the same number and the same hash of the block before, so it can be written as well.
  have hparent' : ¬ e.completed.IsParentLengthy := hparent
  obtain ⟨again, hagain, hextends', hextra'⟩ := toToolJson_of_toFields hplain hparent' hmore
  refine ⟨_, hagain, .object fun key => ?_⟩
  -- Fields that mean nothing here are compared through what is kept of them, all others through what is written.
  by_cases hknown : key ∈ knownKeys
  · by_cases hhashes : key = "blockHashes"
    · obtain ⟨given', added', hgiven', hadded', -, -, hvalue'⟩ := hextends'.hashes
      rw [newParent_completed] at hadded'
      obtain rfl := Except.ok.inj hadded'
      obtain rfl := Except.ok.inj (hsorted.symm.trans hgiven')
      rw [hhashes, hvalue', hvalue, List.reverse_nil, List.append_nil]
      exact hashField_alike hperm hnodup
    · have hroot := ne_of_mem_knownKeys hknown
      rw [hextends'.others key hhashes hroot, hextends.others key hhashes hroot,
        value?_toFields_completed he hplain h hmore hknown hhashes]
      exact Json.Alike.option _
  · have htells' := tells_of_extends hplain hparent' hmore hextends' hextra'
    rw [completed_completed] at htells'
    rw [← htells'.value?_extra_eq hknown, ← htells.value?_extra_eq hknown]
    exact Json.Alike.option _

/-- Where the number of the block before can be written, the environment is extended. -/
theorem isExtended_of_not_isParentLengthy (he : e.Plain) (hparent : ¬ e.IsParentLengthy) (h : e.toFields = .ok fields) :
    e.IsExtended fields := by
  obtain ⟨tool, htool, hextends, hextra⟩ := toToolJson_of_toFields he hparent h
  have htells := tells_of_extends he hparent h hextends hextra
  have hread := ofJson_of_tells htells
  obtain ⟨again, hagain, halike⟩ := toToolJson_completed he (plain_of_ofJson hread) hparent h hextends htells
  exact ⟨tool, htool, hextends, e.completed, again, hread, hagain, halike⟩

/-- An environment that was read and can be written is written for the tool with what it asks for added and nothing
else changed, and what is read from there is written for the tool in the same way again, unless the number of the block
before has to be written and has too many digits for that. Then nothing is written. -/
theorem toToolJson_extends_iff {j : Json} (hread : ofJson j = .ok e) (hwrite : e.toJson = .ok (.object fields)) :
    (e.IsExtended fields ↔ ¬ e.IsParentLengthy) ∧ (e.toToolJson = .error .unwritableNumber ↔ e.IsParentLengthy) := by
  have hplain := plain_of_ofJson hread
  obtain ⟨_, hfields, hobject⟩ := bind_eq_ok.1 hwrite
  obtain rfl := Json.object.inj (Except.ok.inj hobject)
  refine ⟨⟨?_, fun h => isExtended_of_not_isParentLengthy hplain h hfields⟩, ⟨fun h => ?_, fun h => ?_⟩⟩
  · rintro ⟨tool, htool, -⟩ hparent
    rw [toToolJson_of_isParentLengthy hplain hparent hfields] at htool
    cases htool
  · by_contra hparent
    obtain ⟨tool, htool, -⟩ := isExtended_of_not_isParentLengthy hplain hparent hfields
    rw [htool] at h
    cases h
  · exact toToolJson_of_isParentLengthy hplain h hfields

end

def chainedBlock : Fields := [("currentBeaconRoot", .text "0xbe"), ("currentCoinbase", .text "0X1"),
  ("currentGasLimit", .int 5), ("currentTimestamp", .text "3"), ("currentNumber", .text "0x07"),
  ("previousHash", .text "0x2"), ("blockHashes", .object [(" 05", .text "0x1")])]

def chainedEnvironment : Environment :=
  ⟨1, 5, 7, 3, none, none, none, some 2, .ofList [(5, 1)], [("currentBeaconRoot", .text "0xbe")]⟩

def fullHash (n : Nat) : Json := .text (Hex.marked (Number.hexPadded 64 n))

theorem ofJson_chainedBlock : ofJson (.object chainedBlock) = .ok chainedEnvironment := by
  have hnumbers : ∀ p ∈ chainedEnvironment.numbers,
      (Hex.quantityAt? (.object chainedBlock) p.1).toOption = some p.2 := by decide +kernel
  refine ofJson_of_tells ⟨fun p hp => eq_ok_of_toOption (hnumbers p hp),
    ⟨[(5, 1)], eq_ok_of_toOption (by decide +kernel), rfl⟩, ?_⟩
  simp [chainedEnvironment, chainedBlock, isExtra, Text.isOneOf, knownKeys, requiredKeys]

theorem toToolJson_extends_iff_chainedBlock : ofJson (.object chainedBlock) = .ok chainedEnvironment ∧
    ¬ chainedEnvironment.IsParentLengthy ∧
    ∃ fields tool : Fields, chainedEnvironment.toJson = .ok (.object fields) ∧
      chainedEnvironment.toToolJson = .ok (.object tool) ∧
      fields.value? "blockHashes" = some (.object [("5", fullHash 1)]) ∧
      tool.value? "blockHashes" = some (.object [("5", fullHash 1), ("6", fullHash 2)]) ∧
      tool.value? "parentBeaconBlockRoot" = some (.text "0xbe") ∧
      ∃ e' again, ofJson (.object tool) = .ok e' ∧ e'.toToolJson = .ok again ∧ again.Alike (.object tool) := by
  have hread := ofJson_chainedBlock
  obtain ⟨fields, hwrite, hhashes, hroot, hcurrent⟩ : ∃ fields : Fields,
      chainedEnvironment.toJson = .ok (.object fields) ∧
      fields.value? "blockHashes" = some (.object [("5", fullHash 1)]) ∧
      fields.value? "parentBeaconBlockRoot" = none ∧ fields.value? "currentBeaconRoot" = some (.text "0xbe") :=
    ⟨_, rfl, rfl, rfl, rfl⟩
  have hparent : ¬ chainedEnvironment.IsParentLengthy := fun h => absurd h.2.2 (by decide +kernel)
  obtain ⟨tool, htool, hextends, hagain⟩ := (toToolJson_extends_iff hread hwrite).1.2 hparent
  obtain ⟨given, added, hgiven, hadded, -, -, hshown⟩ := hextends.hashes
  obtain rfl := Except.ok.inj (hgiven.symm.trans rfl)
  obtain rfl := Except.ok.inj (hadded.symm.trans rfl)
  have htoolRoot := hextends.root
  rw [hroot, hcurrent] at htoolRoot
  exact ⟨hread, hparent, fields, tool, hwrite, htool, hhashes, hshown, htoolRoot, hagain⟩

def numberedBlock (number : Text) : Fields := [("currentCoinbase", .text "0x01"), ("currentGasLimit", .text "0x10"),
  ("currentNumber", .text number), ("currentTimestamp", .text "0x03"), ("previousHash", .text "0x01")]

def numberedEnvironment (number : Int) : Environment := ⟨1, 16, number, 3, none, none, none, some 1, .empty, []⟩

theorem ofJson_numberedBlock {t : Text} {number : Int} (h : Hex.decodeQuantity t = .ok number) :
    ofJson (.object (numberedBlock t)) = .ok (numberedEnvironment number) := by
  refine ofJson_of_tells ⟨?_, ⟨[], rfl, rfl⟩, rfl⟩
  simp only [numbers, List.forall_mem_cons]
  exact ⟨rfl, rfl, Hex.quantityAt?_of_quantityAt (Hex.quantityAt_eq_ok rfl h), rfl, rfl, rfl, rfl, rfl,
    List.forall_mem_nil _⟩

theorem exists_toFields_numberedEnvironment {number : Int} (h : 0 ≤ number) :
    ∃ fields, (numberedEnvironment number).toFields = .ok fields := by
  have hhash : ∀ hash ∈ (some 1 : Option Int), 0 ≤ hash ∧ hash < twoPow 256 := by decide
  have hfits : (numberedEnvironment number).Fits :=
    ⟨(by decide : (0 : Int) ≤ 1 ∧ (1 : Int) < twoPow 160), (by decide : (0 : Int) ≤ 16), h, (by decide : (0 : Int) ≤ 3),
      nofun, nofun, nofun, hhash, nofun⟩
  obtain ⟨known, hfields, -⟩ := exists_toFields hfits
  exact ⟨_, hfields⟩

def roundNumber (k : Nat) : Nat := Nat.pow 16 k

def roundDigits (k : Nat) : Text := .char '1' :: List.replicate k (.char '0')

theorem decodeQuantity_roundDigits (k : Nat) :
    Hex.decodeQuantity (Hex.marked (roundDigits k)) = .ok (roundNumber k) := by
  have hdigits : Hex.AllHex (roundDigits k) := List.forall_mem_cons.2 ⟨by decide, Hex.allHex_zeros k⟩
  have hvalue : Number.ofHexDigits (roundDigits k) = 1 * roundNumber k := Hex.ofHexDigits_append_zeros [.char '1'] k
  rw [Hex.decodeQuantity_of_digits (Hex.digits_marked hdigits) hdigits, hvalue, Nat.one_mul]

theorem roundNumber_pos (k : Nat) : 0 < roundNumber k := Nat.pow_pos (by decide)

/-- The number before this one has more decimal digits than are written. -/
theorem isLengthy_roundNumber : Number.isLengthy ((roundNumber 3572 : Int) - 1) = true := by
  have hround : tenPow Number.maxDigits < roundNumber 3572 := by decide +kernel
  rw [Number.isLengthy, decide_eq_true_eq]
  omega

/-- A block of that number is read and written, and yet not written for the tool. -/
theorem not_isExtended_numberedBlock : ∃ (e : Environment) (fields : Fields),
    ofJson (.object (numberedBlock (Hex.marked (roundDigits 3572)))) = .ok e ∧ e.toJson = .ok (.object fields) ∧
      ¬ e.IsExtended fields := by
  have hread := ofJson_numberedBlock (decodeQuantity_roundDigits 3572)
  have hpos : (0 : Int) < roundNumber 3572 := Int.natCast_pos.2 (roundNumber_pos 3572)
  obtain ⟨fields, hfields⟩ := exists_toFields_numberedEnvironment (Int.le_of_lt hpos)
  refine ⟨_, fields, hread, bind_eq_ok.2 ⟨_, hfields, rfl⟩, ?_⟩
  rintro ⟨tool, htool, -⟩
  rw [toToolJson_of_isParentLengthy (plain_of_ofJson hread) ⟨rfl, hpos, isLengthy_roundNumber⟩ hfields] at htool
  cases htool

end Environment

end CallTrace
