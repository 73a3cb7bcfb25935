import CallTrace.Proofs.Hex.LineEnd
import CallTrace.Proofs.Json.Order
import CallTrace.Proofs.Shape
import CallTrace.Proofs.StateTest

namespace CallTrace
open Attempt

namespace Shape
open Hex

/-- Digits of a quantity. They may have a line end behind them, but not a line end alone. -/
def digits : Shape Text := ⟨fun s => isDigits (unmark s) = true ∧ ¬ IsLineEnd s, IsLineEnd⟩

def quantity : Shape Json :=
  ⟨fun j => (∃ n, j = .int n) ∨ ∃ s, j = .text s ∧ digits.Reads s, fun j => ∃ s, j = .text s ∧ digits.Breaks s⟩

def pairs : Shape Text :=
  ⟨fun s => (unmark s).length % 2 = 0 ∧ ∀ c ∈ unmark s, Number.isHexDigit c = true, IsOddLine⟩

def octets : Shape Json :=
  ⟨fun j => ∃ s, j = .text s ∧ pairs.Reads s, fun j => ∃ s, j = .text s ∧ pairs.Breaks s⟩

def integer : Shape Json := ⟨fun j => ∃ n, j.toInt = .ok n, fun j => ∀ n, j.toInt ≠ .ok n⟩

theorem follows_decodeQuantity (s : Text) : Follows digits s (decodeQuantity s) := by
  unfold decodeQuantity
  by_cases hd : isDigits (unmark s) = true
  · rw [digits_eq_ok.2 ⟨rfl, hd⟩, ok_bind]
    split
    · rename_i hnil
      have hline : ¬ IsLineEnd s := by simp [IsLineEnd, hnil]
      exact .of_ok _ ⟨hd, hline⟩ hline
    · rename_i hline
      exact .of_raw ⟨rfl, rfl, nofun⟩ (fun h => h.2 hline) hline
    · rename_i hline
      exact .of_ok _ ⟨hd, hline⟩ hline
  · have hdigits : Hex.digits s = .error (.badHexDigits s) := if_neg hd
    have hline : ¬ IsLineEnd s := fun h => hd (by rw [h]; rfl)
    rw [hdigits]
    exact .of_expected (.inl rfl) (fun h => hd h.1) hline

theorem follows_quantity (j : Json) : Follows quantity j (Hex.quantity j) := by
  cases j with
  | int n => exact .of_ok n (.inl ⟨n, rfl⟩) (by simp [quantity])
  | text s => exact (follows_decodeQuantity s).congr (by simp [quantity]) (by simp [quantity])
  | _ => exact .of_expected (.inl rfl) (by simp [quantity]) (by simp [quantity])

theorem exists_decode_iff {s : Text} : (∃ bs, decode s = .ok bs) ↔
    (unmark s).length % 2 = 0 ∧ ∀ c ∈ unmark s, Number.isHexDigit c = true := by
  rw [← isSome_ofPairs? []]
  unfold decode
  constructor
  · rintro ⟨bs, h⟩
    obtain ⟨ds, hds, h⟩ := bind_eq_ok.1 h
    obtain ⟨rfl, -⟩ := digits_eq_ok.1 hds
    split at h
    · cases h
    · cases hpairs : ofPairs? [] (unmark s) with
      | none =>
        rw [hpairs] at h
        cases h
      | some bs => rfl
  · intro h
    obtain ⟨heven, hall⟩ := (isSome_ofPairs? [] (unmark s)).1 h
    obtain ⟨bs, hbs⟩ := Option.isSome_iff_exists.1 h
    refine ⟨bs, ?_⟩
    rw [digits_eq_ok.2 ⟨rfl, isDigits_eq_true.2 (.inl hall)⟩, ok_bind, if_neg (by omega), hbs]
    rfl

/-- What is wrong with digits that give no octets. -/
theorem decode_eq_error {s : Text} {f : Fault} (h : decode s = .error f) :
    f = .badHexDigits s ∨ f = .oddHexDigits s ∨ f = .lineEndInOctets := by
  unfold decode at h
  rcases bind_eq_error.1 h with h | ⟨ds, -, h⟩
  · unfold Hex.digits at h
    dsimp only at h
    split at h
    · cases h
    · exact .inl (Except.error.inj h).symm
  · split at h
    · exact .inr (.inl (Except.error.inj h).symm)
    · cases hpairs : ofPairs? [] ds with
      | none =>
        rw [hpairs] at h
        exact .inr (.inr (Except.error.inj h).symm)
      | some bs =>
        rw [hpairs] at h
        cases h

theorem follows_decode (s : Text) : Follows pairs s (decode s) where
  reads := exists_decode_iff
  breaks := by
    -- Of the faults there are, those that escape are those that nobody looks out for.
    refine Iff.trans (exists_congr fun f => and_congr_right fun hf => ?_) escapes_decode
    rcases decode_eq_error hf with rfl | rfl | rfl
    · exact iff_of_false (Fault.Expected.not_raw (.inl rfl)) fun h => nomatch h.1
    · exact iff_of_false (Fault.Expected.not_raw (.inl rfl)) fun h => nomatch h.1
    · exact iff_of_true ⟨rfl, rfl, nofun⟩ ⟨rfl, nofun⟩
  fails f hf := by
    rcases decode_eq_error hf with rfl | rfl | rfl
    · exact .inr (.inl rfl)
    · exact .inr (.inl rfl)
    · exact .inl ⟨rfl, rfl, nofun⟩

theorem follows_octets (j : Json) : Follows octets j (Hex.octets j) := by
  cases j with
  | text s => exact (follows_decode s).congr (by simp [octets]) (by simp [octets])
  | _ => exact .of_expected (.inl rfl) (by simp [octets]) (by simp [octets])

theorem follows_integer (j : Json) : Follows integer j j.toInt := by
  cases hj : j.toInt with
  | ok n => exact .of_ok n ⟨n, hj⟩ fun h => h n hj
  | error f =>
    have hraw : f.Raw := by
      unfold Json.toInt at hj
      split at hj
      · cases hj
      · cases hj
      · cases hj
        exact ⟨rfl, rfl, nofun⟩
      · rename_i x _
        cases hx : x.truncate? <;> rw [hx] at hj <;> cases hj
        exact ⟨rfl, rfl, nofun⟩
      · rename_i s
        cases hs : Number.integer? s <;> rw [hs] at hj <;> cases hj
        exact ⟨rfl, rfl, nofun⟩
      · cases hj
        exact Fault.raw_unsuited
    exact .of_raw hraw (by simp [integer, hj]) (by simp [integer, hj])

/-- All values are read before the first key. -/
def storage : Shape Json := object ((each (quantity.on Prod.snd)).andThen (each (digits.on Prod.fst)))

def account : Shape Json := object <|
  (required "balance" quantity).andThen <| (required "nonce" quantity).andThen <|
  (permitted "storage" storage).andThen <| required "code" octets

def worldState : Shape Json := object (each ((digits.on Prod.fst).andThen (account.on Prod.snd)))

theorem follows_storage (j : Json) : Follows storage j (Account.storageOf j) := by
  unfold Account.storageOf
  refine follows_fields fun fs => ?_
  refine (Follows.mapM fun f : Text × Json => .on (follows_quantity f.2)).bind fun values _ => ?_
  exact (Follows.mapM fun f : Text × Json => .on (follows_decodeQuantity f.1)).map _

theorem follows_account (j : Json) : Follows account j (Account.ofJson j) := by
  refine .onMissing (fun _ => rfl) ?_
  apply follows_object
  · intro fs
    refine (follows_required follows_quantity).bind fun balance _ => ?_
    refine (follows_required follows_quantity).bind fun nonce _ => ?_
    refine (follows_permitted follows_storage ⟨.empty, rfl⟩).bind fun storage _ => ?_
    exact (follows_required follows_octets).map _
  · intro hj
    exact failsBy_bind.2 (.inl (failsBy_raw_field hj "balance" _))

theorem follows_worldState (j : Json) : Follows worldState j (WorldState.ofJson j) := by
  unfold WorldState.ofJson
  refine follows_fields fun fs => ?_
  refine (Follows.mapM fun f => ?_).map _
  refine (Follows.on (follows_decodeQuantity f.1)).bind fun address _ => ?_
  exact (Follows.on (follows_account f.2)).map _

end Shape

namespace Json

inductive IsPlain : Json → Prop where
  | null : IsPlain .null
  | bool (b : Bool) : IsPlain (.bool b)
  | int (n : Int) : IsPlain (.int n)
  | real (x : Binary64) : IsPlain (.real x)

def speaksOf (j : Json) (key : Text) : Bool :=
  match j with
  | .object fs => Fields.has fs key
  | .list items => items.any (·.same (.text key))
  | .text s => Text.holds key s
  | _ => false

theorem mentions_of_not_isPlain {j : Json} (h : ¬ j.IsPlain) (key : Text) : j.mentions key = .ok (j.speaksOf key) := by
  cases j with
  | null => exact absurd .null h
  | bool b => exact absurd (.bool b) h
  | int n => exact absurd (.int n) h
  | real x => exact absurd (.real x) h
  | _ => rfl

end Json

namespace Shape
open Hex

def blockHashes : Shape Json :=
  object (each ((integer.on fun f : Text × Json => .text f.1).andThen (quantity.on Prod.snd)))

def block : Shape Fields :=
  (required "currentCoinbase" quantity).andThen <| (required "currentGasLimit" quantity).andThen <|
  (required "currentNumber" quantity).andThen <| (required "currentTimestamp" quantity).andThen <|
  (permitted "currentDifficulty" quantity).andThen <| (permitted "currentRandom" quantity).andThen <|
  (permitted "currentBaseFee" quantity).andThen <| (permitted "previousHash" quantity).andThen <|
  permitted "blockHashes" blockHashes

/-- That the required names stand in an environment is asked for before anything else, whatever it is that they
stand in. -/
def environment : Shape Json :=
  ⟨(object block).Reads, fun j => j.IsPlain ∨
    (∀ key ∈ Environment.requiredKeys, j.speaksOf key = true) ∧ (object block).Breaks j⟩

theorem follows_blockHashes {β : Type} (g : List (Int × Int) → β) (j : Json) :
    Follows blockHashes j (j.fields >>= fun fs => fs.mapM Environment.blockHash >>= fun hashes => .ok (g hashes)) := by
  refine follows_fields fun fs => (Follows.mapM fun f => ?_).map g
  have hnumber : Follows (integer.on fun f : Text × Json => .text f.1) f (Json.text f.1).toInt :=
    .on (follows_integer (.text f.1))
  refine hnumber.bind fun n _ => ?_
  exact (Follows.on (follows_quantity f.2)).map _

theorem follows_quantityAt? {fs : Fields} {key : Text} :
    Follows (permitted key quantity) fs (Hex.quantityAt? (.object fs) key) := by
  unfold Hex.quantityAt? Hex.quantityAt
  simp only [bind_assoc]
  exact follows_mentioned fun j => (follows_quantity j).map some

theorem speaksOf_of_reads_block {j : Json} (h : (object block).Reads j) :
    ∀ key ∈ Environment.requiredKeys, j.speaksOf key = true := by
  obtain ⟨fs, rfl, ⟨_, hcoinbase, -⟩, ⟨_, hgasLimit, -⟩, ⟨_, hnumber, -⟩, ⟨_, htimestamp, -⟩, -⟩ := h
  simp [Environment.requiredKeys, Json.speaksOf, Fields.has, hcoinbase, hgasLimit, hnumber, htimestamp]

theorem follows_environment (j : Json) : Follows environment j (Environment.ofJson j) := by
  -- In a plain value no name can be looked for, so not even a list of what is missing comes about.
  by_cases hplain : j.IsPlain
  · have hraw : Environment.ofJson j = .error .unsuited := by cases hplain <;> rfl
    rw [hraw]
    refine .of_raw Fault.raw_unsuited ?_ (.inl hplain)
    rintro ⟨fs, rfl, -⟩
    cases hplain
  · have hmissing : (Environment.requiredKeys.filterM fun key => return !(← j.mentions key)) =
        .ok (Environment.requiredKeys.filter fun key => !j.speaksOf key) :=
      filterM_eq_ok fun key _ => by rw [Json.mentions_of_not_isPlain hplain]; rfl
    unfold Environment.ofJson
    rw [hmissing, ok_bind]
    dsimp only
    -- All the required names are looked for before the first of them is read.
    by_cases hall : ∀ key ∈ Environment.requiredKeys, j.speaksOf key = true
    · have hnone : (Environment.requiredKeys.filter fun key => !j.speaksOf key) = [] := by
        rw [List.filter_eq_nil_iff]
        intro key hkey
        rw [hall key hkey]
        exact Bool.false_ne_true
      rw [hnone, if_neg (by decide)]
      refine Follows.congr (p := object block) (a := j) ?_ .rfl ?_
      · apply follows_object
        · intro fs
          simp only [Json.fields_object, ok_bind, bind_assoc]
          refine (follows_required follows_quantity).bind fun coinbase _ => ?_
          refine (follows_required follows_quantity).bind fun gasLimit _ => ?_
          refine (follows_required follows_quantity).bind fun number _ => ?_
          refine (follows_required follows_quantity).bind fun timestamp _ => ?_
          refine follows_quantityAt?.bind fun difficulty _ => ?_
          refine follows_quantityAt?.bind fun random _ => ?_
          refine follows_quantityAt?.bind fun baseFee _ => ?_
          refine follows_quantityAt?.bind fun previousHash _ => ?_
          exact follows_permitted (follows_blockHashes _) ⟨_, rfl⟩
        · intro hj
          exact failsBy_bind.2 (.inl (failsBy_raw_field hj "currentCoinbase" _))
      · exact ⟨fun h => .inr ⟨hall, h⟩, fun h => (h.resolve_left hplain).2⟩
    · have hsome : (!(Environment.requiredKeys.filter fun key => !j.speaksOf key).isEmpty) = true := by
        rw [Bool.not_eq_true', List.isEmpty_eq_false_iff, Ne, List.filter_eq_nil_iff]
        simpa using hall
      rw [if_pos hsome]
      refine .of_expected (f := .environmentLacks _) (.inl rfl) (hall ∘ speaksOf_of_reads_block) ?_
      rintro (h | h)
      · exact hplain h
      · exact hall h.1

end Shape

def Fee.kindOf? (speaks : Text → Bool) : Option Fee.Kind :=
  if speaks "gasPrice" then some .legacy
  else if speaks "maxPriorityFeePerGas" && speaks "maxFeePerGas" then some .dynamic
  else none

theorem Fee.Kind.ofJson_eq {j : Json} (h : ¬ j.IsPlain) : ofJson j =
    match kindOf? j.speaksOf with
    | some kind => .ok kind
    | none => sortedKeys j >>= fun keys => .error (.unpriced keys) := by
  unfold ofJson kindOf?
  simp only [Json.mentions_of_not_isPlain h, ok_bind]
  cases j.speaksOf "gasPrice" with
  | true => rfl
  | false =>
    cases j.speaksOf "maxPriorityFeePerGas" with
    | false => rfl
    | true => cases j.speaksOf "maxFeePerGas" <;> rfl

namespace Shape
open Hex

def access : Shape Json := object <|
  (required "address" quantity).andThen <| required "storageKeys" (items (each quantity))

def accessList : Shape Json := given (items (each access))

def fee : Fee.Kind → Shape Fields
  | .legacy => required "gasPrice" quantity
  | .dynamic => (required "maxPriorityFeePerGas" quantity).andThen (required "maxFeePerGas" quantity)

def base (kind : Fee.Kind) : Shape Fields :=
  (required "sender" quantity).andThen <| (required "secretKey" quantity).andThen <|
  (permitted "to" (given quantity)).andThen <| (required "nonce" quantity).andThen (fee kind)

def choices (kind : Fee.Kind) : Shape Fields :=
  (base kind).andThen <| (required "gasLimit" (items (each quantity))).andThen <|
  (required "value" (items (each quantity))).andThen <| required "data" (items (each octets))

def priced (kind : Fee.Kind) : Shape Json :=
  object ((choices kind).andThen (permitted "accessLists" (items (each accessList))))

/-- The sort of a transaction is asked for before anything else, whatever it is that its names stand in. Without one
the names are put in order, to be reported. -/
def template : Shape Json :=
  ⟨fun j => ∃ kind, Fee.kindOf? j.speaksOf = some kind ∧ (priced kind).Reads j,
    fun j => j.IsPlain ∨ (∃ kind, Fee.kindOf? j.speaksOf = some kind ∧ (priced kind).Breaks j) ∨
      Fee.kindOf? j.speaksOf = none ∧ ∃ names, j = .list names ∧ ∀ sorted, Json.sorted names ≠ .ok sorted⟩

section
variable {α β : Type} {p : Shape Json} {read : Json → Except Fault α} {fs : Fields} {key : Text}

/-- A list in a field, read item by item. -/
theorem follows_listed (h : ∀ j, Follows p j (read j)) : Follows (required key (items (each p))) fs
    ((Json.object fs).field key >>= fun j => j.items >>= fun js => js.mapM read) :=
  follows_required fun _ => follows_items fun _ => .mapM h

theorem listed_bind (j : Json) (key : Text) (read : Json → Except Fault α) (g : List α → Except Fault β) :
    (j.field key >>= Json.items >>= fun js => js.mapM read >>= g) =
      (j.field key >>= fun j => j.items >>= fun js => js.mapM read) >>= g := by
  simp only [bind_assoc]

end

theorem follows_access (j : Json) : Follows access j (accessOf j) := by
  unfold accessOf
  apply follows_object
  · intro fs
    refine (follows_required follows_quantity).bind fun address _ => ?_
    rw [listed_bind]
    exact (follows_listed follows_quantity).map _
  · intro hj
    exact failsBy_bind.2 (.inl (failsBy_raw_field hj "address" _))

theorem follows_accessList (j : Json) : Follows accessList j (accessListOf j) := by
  have hitems := follows_items (q := each access) (j := j) fun js => .mapM follows_access
  exact follows_given [] (fun j => j.items >>= fun js => js.mapM accessOf) hitems

theorem follows_recipient {fs : Fields} :
    Follows (permitted "to" (given quantity)) fs (Transaction.recipientOf (.object fs)) := by
  refine follows_permitted (fun j => ?_) ⟨none, rfl⟩
  exact follows_given none (fun j => Hex.quantity j >>= fun n => .ok (some n))
    ((follows_quantity j).map some)

theorem follows_fee (kind : Fee.Kind) (fs : Fields) : Follows (fee kind) fs (Fee.ofJson kind (.object fs)) := by
  cases kind with
  | legacy => exact (follows_required follows_quantity).map _
  | dynamic =>
    refine (follows_required follows_quantity).bind fun tip _ => ?_
    exact (follows_required follows_quantity).map _

theorem follows_base (kind : Fee.Kind) (fs : Fields) :
    Follows (base kind) fs (TransactionTemplate.baseOf kind (.object fs)) := by
  refine (follows_required follows_quantity).bind fun sender _ => ?_
  refine (follows_required follows_quantity).bind fun secretKey _ => ?_
  refine follows_recipient.bind fun recipient _ => ?_
  refine (follows_required follows_quantity).bind fun nonce _ => ?_
  exact (follows_fee kind fs).map _

theorem follows_choices (kind : Fee.Kind) (fs : Fields) :
    Follows (choices kind) fs (TransactionTemplate.choicesOf kind (.object fs)) := by
  refine (follows_base kind fs).bind fun base _ => ?_
  rw [listed_bind]
  refine (follows_listed follows_quantity).bind fun gasLimits _ => ?_
  rw [listed_bind]
  refine (follows_listed follows_quantity).bind fun values _ => ?_
  rw [listed_bind]
  exact (follows_listed follows_octets).map _

theorem follows_accessLists (fs : Fields) : Follows (permitted "accessLists" (items (each accessList))) fs
    (TransactionTemplate.accessListsOf (.object fs)) := by
  unfold TransactionTemplate.accessListsOf
  simp only [bind_assoc]
  exact follows_mentioned fun j => follows_items fun js => (Follows.mapM follows_accessList).map some

theorem follows_priced (kind : Fee.Kind) (j : Json) : Follows (priced kind) j (do
    let template ← Fault.onMissing .templateLacks (TransactionTemplate.choicesOf kind j)
    return { template with accessLists := ← TransactionTemplate.accessListsOf j }) := by
  apply follows_object
  · intro fs
    refine (Follows.onMissing (fun _ => rfl) (follows_choices kind fs)).bind fun template _ => ?_
    exact (follows_accessLists fs).map _
  · intro hj
    have hbase : FailsBy Fault.Raw (TransactionTemplate.baseOf kind j) :=
      failsBy_bind.2 (.inl (failsBy_raw_field hj "sender" _))
    exact failsBy_bind.2 (.inl (failsBy_raw_onMissing (failsBy_bind.2 (.inl hbase))))

/-- Names that are texts can be put in order. -/
theorem follows_unpriced {β : Type} {p : Shape Json} {j : Json} {names : List Json} {g : Fee.Kind → Except Fault β}
    (hnames : j.items = .ok names) (htexts : Json.AreTexts names) (hreads : ¬ p.Reads j) (hbreaks : ¬ p.Breaks j) :
    Follows p j ((Fee.sortedKeys j >>= fun keys => .error (.unpriced keys)) >>= g) := by
  obtain ⟨keys, hkeys⟩ := Json.exists_sorted htexts
  rw [Fee.sortedKeys, hnames, ok_bind, hkeys]
  exact .of_expected (f := .unpriced keys) (.inl rfl) hreads hbreaks

theorem follows_template (j : Json) : Follows template j (TransactionTemplate.ofJson j) := by
  by_cases hplain : j.IsPlain
  · have hraw : TransactionTemplate.ofJson j = .error .unsuited := by cases hplain <;> rfl
    rw [hraw]
    refine .of_raw Fault.raw_unsuited ?_ (.inl hplain)
    rintro ⟨kind, -, fs, rfl, -⟩
    cases hplain
  · unfold TransactionTemplate.ofJson
    rw [Fee.Kind.ofJson_eq hplain]
    -- Without a sort the names are put in order to be told, which fails for names that are no texts.
    cases hkind : Fee.kindOf? j.speaksOf with
    | some kind =>
      dsimp only
      rw [ok_bind]
      refine (follows_priced kind j).congr ?_ ?_
      · simp [template, hkind]
      · simp [template, hkind, hplain]
    | none =>
      have hreads : ¬ template.Reads j := by simp [template, hkind]
      cases j with
      | list names =>
        show Follows template _ ((Json.sorted names >>= fun keys => .error (.unpriced keys)) >>= _)
        cases hnames : Json.sorted names with
        | ok sorted =>
          exact .of_expected (f := .unpriced sorted) (.inl rfl) hreads
            (by simp [template, hkind, hplain, hnames])
        | error f =>
          obtain rfl := (Json.onlyUnsuited_sorted names).eq_unsuited hnames
          exact .of_raw Fault.raw_unsuited hreads (by simp [template, hkind, hnames])
      | object fs =>
        have htexts : Json.AreTexts (fs.map fun f => .text f.1) := by
          intro name hname
          obtain ⟨f, -, rfl⟩ := List.mem_map.1 hname
          exact ⟨f.1, rfl⟩
        exact follows_unpriced rfl htexts hreads (by simp [template, hkind, hplain])
      | text s =>
        exact follows_unpriced rfl (by simp [Json.AreTexts]) hreads (by simp [template, hkind, hplain])
      | _ => exact absurd (by constructor) hplain

def run : Shape Json := object <| required "indexes" <| object <|
  (required "data" integer).andThen <| (required "gas" integer).andThen <| required "value" integer

def post : Shape Json := object (each ((items (each run)).on Prod.snd))

/-- That there are runs is asked for with the other parts, before anything is read of them. -/
def parts : Shape Fields :=
  (required "pre" worldState).andThen <| (required "env" environment).andThen <|
  (required "transaction" template).andThen <| required "post" anything

def test : Shape Json := object (parts.andThen (required "post" post))

def fixture : Shape Json := object (each (test.on Prod.snd))

theorem follows_run (fork : Text) (j : Json) : Follows run j (Instance.ofJson fork j) := by
  refine .onMissing (fun _ => rfl) ?_
  apply follows_object
  · intro fs
    simp only [Json.fieldOr_object, ok_bind]
    refine follows_required fun indexes => ?_
    apply follows_object
    · intro fs
      refine (follows_required follows_integer).bind fun data _ => ?_
      refine (follows_required follows_integer).bind fun gas _ => ?_
      exact (follows_required follows_integer).map _
    · intro hj
      exact failsBy_bind.2 (.inl (failsBy_raw_field hj "data" _))
  · intro hj
    exact failsBy_raw_field hj "indexes" _

theorem follows_post (j : Json) {β : Type} (g : List (Text × List Instance) → β) :
    Follows post j (j.fields >>= fun fs => fs.mapM StateTest.instancesOf >>= fun groups => .ok (g groups)) := by
  refine follows_fields fun fs => (Follows.mapM fun f => .on ?_).map g
  exact follows_items fun js => (Follows.mapM (follows_run f.1)).map _

theorem follows_parts (fs : Fields) : Follows parts fs (StateTest.partsOf (.object fs)) := by
  refine (follows_required follows_worldState).bind fun pre _ => ?_
  refine (follows_required follows_environment).bind fun env _ => ?_
  refine (follows_required follows_template).bind fun template _ => ?_
  exact follows_required fun post => .ok _

theorem post_of_partsOf {fs : Fields} {pre : WorldState} {env : Environment} {template : TransactionTemplate}
    {post : Json} (h : StateTest.partsOf (.object fs) = .ok (pre, env, template, post)) :
    (Json.object fs).field "post" = .ok post := by
  obtain ⟨_, -, h⟩ := bind_eq_ok.1 h
  obtain ⟨_, -, h⟩ := bind_eq_ok.1 h
  obtain ⟨_, -, h⟩ := bind_eq_ok.1 h
  obtain ⟨_, hpost, h⟩ := bind_eq_ok.1 h
  obtain ⟨-, -, -, rfl⟩ : _ ∧ _ ∧ _ ∧ _ := by simpa using Except.ok.inj h
  exact hpost

theorem follows_test (name : Text) (j : Json) : Follows test j (StateTest.ofJson name j) := by
  unfold StateTest.ofJson
  apply follows_object
  · intro fs
    refine (Follows.onMissing (fun _ => rfl) (follows_parts fs)).bind fun read hread => ?_
    obtain ⟨pre, env, template, post⟩ := read
    exact follows_required_of_eq (post_of_partsOf (Fault.onMissing_eq_ok.1 hread))
      fun j => follows_post j fun instances => StateTest.mk name pre env template instances
  · intro hj
    have hparts : FailsBy Fault.Raw (StateTest.partsOf j) :=
      failsBy_bind.2 (.inl (failsBy_raw_field hj "pre" _))
    exact failsBy_bind.2 (.inl (failsBy_raw_onMissing hparts))

theorem follows_fixture (j : Json) : Follows fixture j (StateTest.allOfJson j) :=
  follows_fields fun _ => .mapM fun f => .on (follows_test f.1 f.2)

end Shape

namespace StateTest

/-- Of a key that is missing is told what lacks it. -/
theorem not_missingKey_onMissing {α : Type} {wrap : Json → Fault} (hwrap : ∀ key, (wrap key).isDomain = true)
    (x : Except Fault α) : ¬ FailsBy Fault.IsMissingKey (Fault.onMissing wrap x) := by
  rintro ⟨f, hf, key, rfl⟩
  unfold Fault.onMissing at hf
  split at hf
  · rename_i key'
    have hdomain := hwrap key'
    rw [Except.error.inj hf] at hdomain
    cases hdomain
  · rename_i hne
    exact hne key hf

theorem not_missingKey_items (j : Json) : ¬ FailsBy Fault.IsMissingKey j.items := by
  rintro ⟨f, hf, key, rfl⟩
  unfold Json.items at hf
  split at hf <;> cases hf

theorem not_missingKey_fields (j : Json) : ¬ FailsBy Fault.IsMissingKey j.fields := by
  rintro ⟨f, hf, key, rfl⟩
  unfold Json.fields at hf
  split at hf <;> cases hf

theorem not_missingKey_instancesOf (f : Text × Json) : ¬ FailsBy Fault.IsMissingKey (instancesOf f) := by
  refine not_failsBy_bind (not_missingKey_items f.2) fun js => ?_
  refine not_failsBy_bind (not_failsBy_mapM fun j => ?_) fun _ => not_failsBy_ok _
  exact not_missingKey_onMissing (fun _ => rfl) _

theorem not_missingKey_ofJson (name : Text) (j : Json) : ¬ FailsBy Fault.IsMissingKey (ofJson name j) := by
  refine not_failsBy_bind (not_missingKey_onMissing (fun _ => rfl) _) fun parts => ?_
  refine not_failsBy_bind (not_missingKey_fields _) fun fs => ?_
  exact not_failsBy_bind (not_failsBy_mapM not_missingKey_instancesOf) fun _ => not_failsBy_ok _

theorem not_missingKey_allOfJson (j : Json) : ¬ FailsBy Fault.IsMissingKey (allOfJson j) :=
  not_failsBy_bind (not_missingKey_fields j) fun _ => not_failsBy_mapM fun f => not_missingKey_ofJson f.1 f.2

/-- A fixture is read just if its shape can be, and if it is not, a fault of the domain says why just if the reader
does not break on the shape. -/
theorem allOfJson_reports_iff (j : Json) : ((∃ tests, allOfJson j = .ok tests) ↔ Shape.fixture.Reads j) ∧
    ((∀ f, allOfJson j = .error f → f.isDomain = true) ↔ ¬ Shape.fixture.Breaks j) := by
  refine ⟨(Shape.follows_fixture j).reads, ?_⟩
  rw [← (Shape.follows_fixture j).breaks]
  constructor
  · rintro h ⟨f, hf, hraw⟩
    exact Fault.Expected.not_raw (.inl (h f hf)) hraw
  · intro h f hf
    rcases (Shape.follows_fixture j).fails f hf with hraw | hdomain | hkey
    · exact absurd ⟨f, hf, hraw⟩ h
    · exact hdomain
    · exact absurd ⟨f, hf, hkey⟩ (not_missingKey_allOfJson j)

def listedState : Json := .object [("t", .object [("pre", .list [])])]

/-- A value of another sort than is asked for goes unreported. -/
theorem not_isDomain_listedState :
    ∃ f, allOfJson listedState = .error f ∧ f.isDomain = false ∧ Shape.fixture.Breaks listedState := by
  have hfault : allOfJson listedState = .error .noFields := rfl
  have hbreaks := (Shape.follows_fixture listedState).breaks.1 ⟨.noFields, hfault, Fault.raw_noFields⟩
  exact ⟨.noFields, hfault, rfl, hbreaks⟩

end StateTest

end CallTrace
