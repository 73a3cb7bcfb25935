import CallTrace.Proofs.Batch.Accounting
import CallTrace.Proofs.TraceTest

namespace CallTrace
open Attempt

namespace Executor

def Fits [Limits] (e : Executor) : Prop :=
  ∀ fork env pre tx a, (e fork env pre tx).result = .ok a → a.data.Fits ∧ a.trace.Fits

/-- No answer of the executor has calls within one another deeper than the machine can follow while it reads. -/
def Follows [Limits] (e : Executor) : Prop :=
  ∀ fork env pre tx a, (e fork env pre tx).result = .ok a →
    Limits.admitsDepth Trace.readerFrames a.trace.nesting = true

theorem follows_unbounded (e : Executor) : @Follows .unbounded e :=
  fun _ _ _ _ _ _ => Limits.admitsDepth_unbounded _ _

end Executor

namespace Batch

variable {b : Batch} {t : StateTest}

/-- What an attempt comes to, if to anything, is an instance that has an id, as it is listed. -/
theorem eq_of_result_attempt {i : Instance} {a : Instance × Except Failure TracedInstance}
    (h : (b.attempt t i).result = .ok a) : a = (i, b.listing t i) := by
  unfold attempt at h
  rw [Run.result_bind] at h
  obtain ⟨x, hx, h⟩ := bind_eq_ok.1 h
  obtain rfl := Run.eq_result_of_result_attempted hx
  rw [result_trace, Run.result_bind, Run.result_ofExcept] at h
  obtain ⟨name, -, h⟩ := bind_eq_ok.1 h
  rw [Run.result_bind, Run.result_tell, ok_bind, Run.result_bind, Run.result_ofExcept] at h
  obtain ⟨id, hid, h⟩ := bind_eq_ok.1 h
  obtain ⟨-, rfl⟩ := Instance.id_eq_ok.1 hid
  exact (Except.ok.inj h).symm

/-- A report is about the state test, and each instance that it lists is what a selected one came to. -/
theorem exists_attempts_of_convert {r : Report} (h : (b.convert t).result = .ok r) :
    ∃ as : Attempts, r = .ofAttempts t as ∧ ∀ a ∈ as, ∃ i ∈ b.selected t, a = (i, b.listing t i) := by
  unfold convert at h
  rw [Run.result_bind] at h
  obtain ⟨as, has, h⟩ := bind_eq_ok.1 h
  refine ⟨as, (Except.ok.inj h).symm, fun a ha => ?_⟩
  obtain ⟨i, hi, hresult⟩ := Run.exists_of_result_forEach has ha
  exact ⟨i, hi, eq_of_result_attempt hresult⟩

theorem name_of_convert {r : Report} (h : (b.convert t).result = .ok r) : r.test.name = t.name := by
  obtain ⟨as, rfl, -⟩ := exists_attempts_of_convert h
  rfl

theorem exists_listing_of_mem_byFork {as : Attempts} (has : ∀ a ∈ as, ∃ i ∈ b.selected t, a = (i, b.listing t i))
    {g : Text × List TracedInstance} (hg : g ∈ as.byFork) {traced : TracedInstance} (htraced : traced ∈ g.2) :
    ∃ i ∈ b.selected t, b.listing t i = .ok traced := by
  have hmem : (g.1, traced) ∈ as.filterMap Attempts.traced? := Attempts.mem_of_mem_group hg htraced
  obtain ⟨a, ha, hsome⟩ := List.mem_filterMap.1 hmem
  obtain ⟨i, hi, rfl⟩ := has a ha
  refine ⟨i, hi, ?_⟩
  cases hlisting : b.listing t i with
  | error f =>
    rw [hlisting] at hsome
    cases hsome
  | ok x =>
    rw [hlisting] at hsome
    obtain ⟨-, rfl⟩ := Prod.mk.inj (Option.some.inj hsome)
    rfl

/-- An instance that is listed as traced has been answered. -/
theorem exists_answer_of_listing {i : Instance} {traced : TracedInstance} (h : b.listing t i = .ok traced) :
    ∃ tx result, b.answer t i = .ok (tx, result) ∧
      traced = ⟨.text i.label, tx, result.outcome, result.data, result.trace⟩ := by
  unfold listing at h
  cases hanswer : b.answer t i with
  | error f =>
    rw [hanswer] at h
    cases h
  | ok p =>
    obtain ⟨tx, result⟩ := p
    rw [hanswer] at h
    exact ⟨tx, result, rfl, (Except.ok.inj h).symm⟩

section
variable [Limits]

theorem readable_of_listing (hfits : b.executor.Fits) (hfollows : b.executor.Follows) {i : Instance}
    {traced : TracedInstance} (h : b.listing t i = .ok traced) : traced.tx.Readable := by
  obtain ⟨tx, result, hanswer, rfl⟩ := exists_answer_of_listing h
  obtain ⟨tx', -, hanswer⟩ := bind_eq_ok.1 hanswer
  obtain ⟨result', hresult, hanswer⟩ := bind_eq_ok.1 hanswer
  obtain ⟨rfl, rfl⟩ := Prod.mk.inj (Except.ok.inj hanswer)
  obtain ⟨hdata, htrace⟩ := hfits _ _ _ _ result' hresult
  exact ⟨hdata, htrace, hfollows _ _ _ _ result' hresult⟩

/-- The report of a state test that was read from a document can be read back. -/
theorem readable_of_convert {name : Text} {j : Json} (ht : StateTest.ofJson name j = .ok t)
    (hfits : b.executor.Fits) (hfollows : b.executor.Follows) {r : Report}
    (hr : (b.convert t).result = .ok r) : r.test.Readable := by
  obtain ⟨-, ⟨env, henv⟩, -⟩ := StateTest.exists_parts_of_ofJson ht
  obtain ⟨as, rfl, has⟩ := exists_attempts_of_convert hr
  refine ⟨Environment.plain_of_ofJson henv, fun g hg traced htraced => ?_⟩
  obtain ⟨i, -, hlisting⟩ := exists_listing_of_mem_byFork has hg htraced
  exact readable_of_listing hfits hfollows hlisting

theorem exists_report_of_convertTest {part : (Text × Json) × List Failure}
    (h : (b.convertTest t).result = .ok part) : ∃ r, (b.convert t).result = .ok r ∧ part.1.1 = t.name ∧
      part.2 = r.failures ∧ r.test.toJson b.abbreviate = .ok part.1.2 := by
  unfold convertTest at h
  rw [Run.result_bind] at h
  obtain ⟨r, hr, h⟩ := bind_eq_ok.1 h
  rw [Run.result_bind, Run.result_ofExcept] at h
  obtain ⟨document, hdocument, h⟩ := bind_eq_ok.1 h
  obtain rfl := Except.ok.inj h
  exact ⟨r, hr, rfl, rfl, hdocument⟩

/-- What the document of a fixture is made of: the tests of the fixture, each converted by itself. -/
theorem exists_parts_of_convertFixture {fixture : Json} {c : Conversion}
    (h : (b.convertFixture fixture).result = .ok c) : ∃ tests parts,
      StateTest.allOfJson fixture = .ok tests ∧ tests.mapM (fun t => (b.convertTest t).result) = .ok parts ∧
        c = ⟨.object (parts.map Prod.fst), parts.flatMap Prod.snd⟩ := by
  unfold convertFixture at h
  rw [Run.result_bind, Run.result_ofExcept] at h
  obtain ⟨tests, htests, h⟩ := bind_eq_ok.1 h
  rw [Run.result_bind, Run.result_mapM] at h
  obtain ⟨parts, hparts, h⟩ := bind_eq_ok.1 h
  exact ⟨tests, parts, htests, hparts, (Except.ok.inj h).symm⟩

/-- So each part of the document of a fixture reads back, under the name of its test. -/
theorem reads_back_of_convertFixture {fixture : Json} {c : Conversion} (hfits : b.executor.Fits)
    (hfollows : b.executor.Follows) (h : (b.convertFixture fixture).result = .ok c) :
    ∃ fields, c.document = .object fields ∧ ∀ f ∈ fields, ∃ t r, (b.convert t).result = .ok r ∧
      f.1 = t.name ∧ TraceTest.ofJson f.1 f.2 = .ok r.test := by
  obtain ⟨tests, parts, htests, hparts, rfl⟩ := exists_parts_of_convertFixture h
  refine ⟨parts.map Prod.fst, rfl, fun f hf => ?_⟩
  obtain ⟨part, hpart, rfl⟩ := List.mem_map.1 hf
  obtain ⟨t, ht, hconvert⟩ := exists_of_mem_mapM hparts hpart
  obtain ⟨r, hr, hname, -, hdocument⟩ := exists_report_of_convertTest hconvert
  obtain ⟨sources, -, htests⟩ := bind_eq_ok.1 htests
  obtain ⟨source, -, hread⟩ := exists_of_mem_mapM htests ht
  refine ⟨t, r, hr, hname, ?_⟩
  rw [hname, ← name_of_convert hr]
  exact TraceTest.ofJson_of_toJson (readable_of_convert hread hfits hfollows hr) hdocument

end

/-- Every document that a batch can write reads back. With room for everything, whatever a state test that was
read from a document holds, and whatever the executor answers, the trace test that a document is written of is
read from it as it was. -/
theorem ofJson_toJson_convert {name : Text} {j document : Json} {abbreviate : Bool} {r : Report}
    (ht : StateTest.ofJson name j = .ok t) (hfits : @Executor.Fits .unbounded b.executor)
    (hr : (b.convert t).result = .ok r)
    (hdocument : @TraceTest.toJson .unbounded abbreviate r.test = .ok document) :
    @TraceTest.ofJson .unbounded t.name document = .ok r.test := by
  have hreadable : @TraceTest.Readable .unbounded r.test :=
    @readable_of_convert _ _ .unbounded _ _ ht hfits (Executor.follows_unbounded _) _ hr
  rw [← name_of_convert hr]
  exact @TraceTest.ofJson_of_toJson .unbounded _ _ _ hreadable hdocument

/-- A document with a contract that keeps a word, block hashes under unusual numbers, fields that mean nothing
here, and a transaction to the zero address that may announce nothing. -/
def storedContract : Json :=
  let chosen (data : Int) : Json :=
    .object [("indexes", .object [("data", .int data), ("gas", .int 0), ("value", .int 0)])]
  .object [
    ("pre", .object [("0x0b", .object [("balance", .text "0x0100"), ("nonce", .int 0), ("code", .text "0x6001"),
      ("storage", .object [("0x02", .text "0x03"), ("0x", .int 5)])])]),
    ("env", .object [("withdrawals", .list []), ("currentCoinbase", .text "0x01"), ("currentGasLimit", .text "0x10"),
      ("currentNumber", .text "0x02"), ("currentTimestamp", .text "0x03"), ("currentRandom", .text "0x"),
      ("blockHashes", .object [(" 1", .text "0x07"), ("-0", .text "0x09")])]),
    ("transaction", .object [("sender", .text "0x0a"), ("secretKey", .text "0x0b"), ("nonce", .text "0x00"),
      ("to", .text "0x00"), ("maxPriorityFeePerGas", .text "0x01"), ("maxFeePerGas", .text "0x0200"),
      ("gasLimit", .texts ["0x20"]), ("value", .texts ["0x00"]), ("data", .texts ["0x", "0x60"]),
      ("accessLists", .list [.null,
        .list [.object [("address", .text "0x0b"), ("storageKeys", .texts ["0x02"])]]])]),
    ("post", .object [("London", .list [chosen 1, chosen 0]), ("Paris", .list [chosen 2])])]

def storedContractTest : StateTest where
  name := "test"
  pre := .ofList [(0x0B, ⟨0x100, 0, .ofList [(2, 3), (0, 5)], [0x60, 0x01]⟩)]
  env := ⟨0x01, 0x10, 0x02, 0x03, none, some 0, none, none, .ofList [(1, 7), (0, 9)], [("withdrawals", .list [])]⟩
  template := ⟨⟨0x0A, 0x0B, some 0, 0, 0, 0, [], none, 1, .dynamic 1 0x200⟩, [0x20], [0], [[], [0x60]],
    some [[], [⟨0x0B, [2]⟩]]⟩
  instances := [("London", [⟨"London", 0, 1, 0, .null⟩, ⟨"London", 0, 0, 0, .null⟩]),
    ("Paris", [⟨"Paris", 0, 2, 0, .null⟩])]

def rejectedOrReverted (data : Octets) : Trace :=
  if data.isEmpty then .ended .intrinsicGas []
  else .step ⟨0, 0xF1, 1, 7, 12, [0, 0x100], [], .ofList [(2, 3)]⟩ <|
    .call (.step ⟨0, 0xFD, 2, 3, 2, [0, 0], List.replicate 32 0x5B, .empty⟩ <| .ended .revert []) <|
      .ended .return (List.replicate 64 0xAB)

def twoWorkers : Batch where
  executor _ _ _ tx := pure (.ofTrace (rejectedOrReverted tx.data))
  filter := StateTest.everyInstance
  abbreviate := true
  workers := 2
  workers_pos := by decide

theorem fits_rejectedOrReverted (data : Octets) : @Trace.Fits .unbounded (rejectedOrReverted data) := by
  unfold rejectedOrReverted
  split
  · decide +kernel
  · decide +kernel

theorem fits_twoWorkers : @Executor.Fits .unbounded twoWorkers.executor := by
  intro fork env pre tx a h
  obtain rfl := Except.ok.inj h
  have hfits := fits_rejectedOrReverted tx.data
  exact ⟨@Trace.Fits.data .unbounded _ hfits, hfits⟩

theorem ofJson_toJson_convert_storedContract :
    StateTest.ofJson "test" storedContract = .ok storedContractTest ∧
      @Executor.Fits .unbounded twoWorkers.executor ∧
      ∃ r document, (twoWorkers.convert storedContractTest).result = .ok r ∧
        @TraceTest.toJson .unbounded true r.test = .ok document ∧
        @TraceTest.ofJson .unbounded "test" document = .ok r.test ∧
        r.test.forks = ["London"] ∧ r.failures.map Failure.id = ["Paris_0_2_0"] := by
  have hread : StateTest.ofJson "test" storedContract = .ok storedContractTest := rfl
  have hreporting : twoWorkers.Reporting := fun _ _ _ _ _ h => nomatch h
  have hmeets : twoWorkers.meetsLengthy storedContractTest = false := by decide +kernel
  have hr := result_convert_of_not_meets hreporting hmeets
  have hwritten : (@TraceTest.toJson .unbounded true (Report.ofAttempts storedContractTest ((twoWorkers.selected
      storedContractTest).map fun i => (i, twoWorkers.listing storedContractTest i))).test).toOption.isSome = true := by
    decide +kernel
  obtain ⟨document, hdocument⟩ := Option.isSome_iff_exists.1 hwritten
  have hdocument := eq_ok_of_toOption hdocument
  exact ⟨hread, fits_twoWorkers, _, document, hr, hdocument,
    ofJson_toJson_convert hread fits_twoWorkers hr hdocument, by decide +kernel, by decide +kernel⟩

end Batch

end CallTrace
