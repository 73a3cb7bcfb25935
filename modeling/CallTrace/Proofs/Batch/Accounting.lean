import CallTrace.Proofs.Batch.Grouping
import CallTrace.Proofs.Run
import CallTrace.Proofs.StateTest

namespace CallTrace
open Attempt

def Report.traced (r : Report) (fork : Text) : List TracedInstance := (r.test.instances.lookup fork).getD []

namespace Batch

/-- What becomes of an instance: its own transaction and the result of that, or a fault. -/
def answer (b : Batch) (t : StateTest) (i : Instance) : Except Fault (Transaction × TraceResult) := do
  let tx ← t.instantiate i
  return (tx, ← (b.executor (.text i.fork) t.env t.pre tx).result)

def listing (b : Batch) (t : StateTest) (i : Instance) : Except Failure TracedInstance :=
  listed t i i.label (b.answer t i)

/-- The executor fails in no other ways than a batch goes on after. -/
def Reporting (b : Batch) : Prop :=
  ∀ fork env pre tx f, (b.executor fork env pre tx).result = .error f → f.isInstanceFault = true

def selected (b : Batch) (t : StateTest) : List Instance := t.select b.filter

def selectedOf (b : Batch) (t : StateTest) (fork : Text) : List Instance :=
  (b.selected t).filter (·.fork = fork)

def failures (b : Batch) (t : StateTest) (is : List Instance) : List Failure :=
  is.filterMap fun i => Attempts.failure? (i, b.listing t i)

def successes (b : Batch) (t : StateTest) (is : List Instance) : List TracedInstance :=
  is.filterMap fun i => (b.listing t i).toOption

section
variable {b : Batch} {t : StateTest}

theorem result_trace (b : Batch) (t : StateTest) (i : Instance) : (b.trace t i).result = b.answer t i := by
  unfold trace answer
  rw [Run.result_bind, Run.result_ofExcept]
  congr 1
  funext tx
  rw [Run.result_bind]
  rfl

/-- An instance comes to nothing in ways that a batch goes on after, unless one of its indexes cannot be told. -/
theorem fault_of_answer (hb : b.Reporting) {i : Instance} {f : Fault} (h : b.answer t i = .error f) :
    f.isInstanceFault = true ∨ (i.isLengthy = true ∧ f = .unwritableNumber) := by
  rcases bind_eq_error.1 h with h | ⟨tx, -, h⟩
  · exact StateTest.fault_of_instantiate h
  rcases bind_eq_error.1 h with h | ⟨result, -, h⟩
  · exact .inl (hb _ _ _ _ f h)
  · cases h

theorem result_instanceName (t : StateTest) (i : Instance) : t.instanceName i =
    if i.isLengthy then .error .unwritableNumber else .ok (t.name ++ "_" ++ i.label) := by
  unfold StateTest.instanceName
  rw [i.id_eq]
  cases i.isLengthy <;> rfl

theorem result_attempt (hb : b.Reporting) (i : Instance) : (b.attempt t i).result =
    if i.isLengthy then .error .unwritableNumber else .ok (i, b.listing t i) := by
  unfold attempt
  rw [Run.result_bind]
  by_cases hwhole : (b.trace t i).attempted.result = .ok (b.answer t i)
  · rw [hwhole, ok_bind, Run.result_bind, Run.result_ofExcept, result_instanceName]
    cases hlengthy : i.isLengthy with
    | true => rfl
    | false =>
      rw [if_neg Bool.false_ne_true, ok_bind, Run.result_bind, Run.result_tell, ok_bind, Run.result_bind,
        Run.result_ofExcept, i.id_eq, hlengthy]
      rfl
  · -- Then it ended in a fault that no batch goes on after.
    have hfault : ∃ f, b.answer t i = .error f ∧ ¬ f.isInstanceFault = true := by
      by_contra hnone
      refine hwhole ?_
      rw [← result_trace] at hnone ⊢
      exact Run.result_attempted fun f hf => by_contra fun hnot => hnone ⟨f, hf, hnot⟩
    obtain ⟨f, hf, hnot⟩ := hfault
    rcases fault_of_answer hb hf with h | ⟨hlengthy, rfl⟩
    · exact absurd h hnot
    · rw [if_pos hlengthy, Run.attempted]
      rw [← result_trace] at hf
      rw [hf]
      rfl

def meetsLengthy (b : Batch) (t : StateTest) : Bool := (b.selected t).any Instance.isLengthy

theorem result_convert (hb : b.Reporting) : (b.convert t).result =
    if b.meetsLengthy t then .error .unwritableNumber
    else .ok (.ofAttempts t ((b.selected t).map fun i => (i, b.listing t i))) := by
  unfold convert meetsLengthy
  rw [Run.result_bind]
  cases hmeets : (b.selected t).any Instance.isLengthy with
  | true =>
    obtain ⟨i, hi, hlengthy⟩ := List.any_eq_true.1 hmeets
    have hended : (Run.forEach b.workers b.chance (b.attempt t) (b.selected t)).result = .error .unwritableNumber := by
      refine Run.result_forEach_eq_error b.workers_pos (fun i _ f hf => ?_) ⟨i, hi, ?_⟩
      · rw [result_attempt hb] at hf
        split at hf
        · exact (Except.error.inj hf).symm
        · cases hf
      · rw [result_attempt hb, if_pos hlengthy]
    exact congrArg (· >>= _) hended
  | false =>
    have hresults : (Run.forEach b.workers b.chance (b.attempt t) (b.selected t)).result =
        .ok ((b.selected t).map fun i => (i, b.listing t i)) := by
      refine Run.result_forEach b.workers_pos b.chance fun i hi => ?_
      rw [result_attempt hb, if_neg (List.any_eq_false.1 hmeets i hi)]
    exact congrArg (· >>= _) hresults

theorem result_convert_of_not_meets (hb : b.Reporting) (h : b.meetsLengthy t = false) : (b.convert t).result =
    .ok (.ofAttempts t ((b.selected t).map fun i => (i, b.listing t i))) := by
  rw [result_convert hb, h]
  rfl

theorem meetsLengthy_congr {b' : Batch} (hfilter : b'.filter = b.filter) : b'.meetsLengthy t = b.meetsLengthy t := by
  rw [meetsLengthy, meetsLengthy, selected, selected, hfilter]

/-- The report depends neither on the number of workers nor on whichever of them is done first. -/
theorem result_convert_congr {b' : Batch} (hb : b.Reporting) (hexecutor : b'.executor = b.executor)
    (hfilter : b'.filter = b.filter) : (b'.convert t).result = (b.convert t).result := by
  have hb' : b'.Reporting := by
    unfold Reporting
    rwa [hexecutor]
  have hlisting : b'.listing t = b.listing t := by
    funext i
    rw [listing, listing, answer, answer, hexecutor]
  rw [result_convert hb', result_convert hb, meetsLengthy_congr hfilter, selected, selected, hfilter, hlisting]

theorem failures_attempts (b : Batch) (t : StateTest) (is : List Instance) :
    Attempts.failures (is.map fun i => (i, b.listing t i)) = b.failures t is := by
  unfold Attempts.failures failures
  rw [List.filterMap_map]
  rfl

def blocks (b : Batch) (t : StateTest) : List (Text × List TracedInstance) :=
  t.instances.map fun g => (g.1, b.successes t (g.2.filter b.filter))

theorem blocks_eq (ht : t.Filed) :
    b.blocks t = t.forks.map fun fork => (fork, b.successes t (b.selectedOf t fork)) := by
  unfold blocks StateTest.forks
  rw [List.map_map]
  refine List.map_congr_left fun g hg => ?_
  show _ = (g.1, b.successes t ((t.select b.filter).filter (·.fork = g.1)))
  rw [ht.select_fork b.filter hg]

theorem selected_eq (b : Batch) (t : StateTest) :
    b.selected t = t.instances.flatMap fun g => g.2.filter b.filter := List.filter_flatMap

theorem flatMap_blocks (b : Batch) (t : StateTest) :
    (b.blocks t).flatMap Prod.snd = b.successes t (b.selected t) := by
  rw [selected_eq]
  unfold blocks successes
  rw [List.flatMap_map, List.filterMap_flatMap]

theorem filterMap_traced {fork : Text} {is : List Instance} (h : ∀ i ∈ is, i.fork = fork) :
    is.filterMap (fun i => Attempts.traced? (i, b.listing t i)) = (b.successes t is).map (fork, ·) := by
  unfold successes
  rw [List.map_filterMap]
  refine List.filterMap_congr fun i hi => ?_
  rw [← h i hi]
  cases b.listing t i <;> rfl

theorem byFork_attempts (ht : t.Filed) :
    Attempts.byFork ((b.selected t).map fun i => (i, b.listing t i)) = (b.blocks t).filter (!·.2.isEmpty) := by
  have hkeys : ((b.blocks t).map Prod.fst).Nodup := by
    rw [blocks, List.map_map]
    exact ht.nodup
  have hblock : ∀ g ∈ t.instances, (g.2.filter b.filter).filterMap (fun i => Attempts.traced? (i, b.listing t i)) =
      (b.successes t (g.2.filter b.filter)).map (g.1, ·) := fun g hg =>
    filterMap_traced fun i hi => ht.fork g hg i (List.mem_filter.1 hi).1
  -- The instances of a fork stand next to one another, so what they come to is one block.
  have hall : ((b.selected t).map fun i => (i, b.listing t i)).filterMap Attempts.traced? =
      (b.blocks t).flatMap fun g => g.2.map (g.1, ·) := by
    rw [selected_eq, List.filterMap_map, List.filterMap_flatMap, blocks, List.flatMap_map]
    exact List.flatMap_congr hblock
  rw [← Attempts.group_blocks hkeys, Attempts.byFork, hall]

/-- The report lists what the instances of each fork come to, for each fork that has any. -/
theorem byFork_eq (ht : t.Filed) : Attempts.byFork ((b.selected t).map fun i => (i, b.listing t i)) =
    (t.forks.filter fun fork => !(b.successes t (b.selectedOf t fork)).isEmpty).map
      fun fork => (fork, b.successes t (b.selectedOf t fork)) := by
  rw [byFork_attempts ht, blocks_eq ht, List.filter_map]
  rfl

theorem flatMap_nonempty {α : Type} (groups : List (Text × List α)) :
    (groups.filter (!·.2.isEmpty)).flatMap Prod.snd = groups.flatMap Prod.snd := by
  induction groups with
  | nil => rfl
  | cons g groups ih =>
    obtain ⟨key, as⟩ := g
    cases as with
    | nil => exact ih
    | cons a as => exact congrArg ((a :: as) ++ ·) ih

theorem lookup_map_self {α : Type} (f : Text → α) (keys : List Text) (key : Text) :
    (keys.map fun k => (k, f k)).lookup key = if key ∈ keys then some (f key) else none := by
  induction keys with
  | nil => rfl
  | cons k keys ih =>
    rw [List.map_cons, List.lookup_cons]
    by_cases hk : key = k
    · subst hk
      simp
    · rw [beq_false_of_ne hk]
      simp only [ih, List.mem_cons, hk, false_or]

theorem length_failures_successes (b : Batch) (t : StateTest) (is : List Instance) :
    (b.failures t is).length + (b.successes t is).length = is.length := by
  unfold failures successes
  induction is with
  | nil => rfl
  | cons i is ih =>
    rw [List.filterMap_cons, List.filterMap_cons]
    cases b.listing t i with
    | error f =>
      show (is.filterMap _).length + 1 + (is.filterMap _).length = is.length + 1
      omega
    | ok traced =>
      show (is.filterMap _).length + ((is.filterMap _).length + 1) = is.length + 1
      omega

/-- A fork that the state test does not have has no instances. -/
theorem selectedOf_eq_nil (ht : t.Filed) {fork : Text} (h : fork ∉ t.forks) : b.selectedOf t fork = [] := by
  unfold selectedOf selected StateTest.select
  rw [List.filter_comm, StateTest.filter_fork_of_not_mem ht.fork h, List.filter_nil]

/-- A report in which each selected instance stands once: with its fault among the failures, or with what it
came to under its fork, each time in the order of the state test. -/
structure Accounts (b : Batch) (t : StateTest) (r : Report) : Prop where
  name : r.test.name = t.name
  pre : r.test.pre = t.pre
  env : r.test.env = t.env
  failures : r.failures = b.failures t (b.selected t)
  forks : r.test.forks = t.forks.filter fun fork => !(b.successes t (b.selectedOf t fork)).isEmpty
  traced : ∀ fork, r.traced fork = b.successes t (b.selectedOf t fork)
  count : r.failures.length + (r.test.instances.flatMap Prod.snd).length = (b.selected t).length

theorem accounts_ofAttempts (ht : t.Filed) :
    b.Accounts t (.ofAttempts t ((b.selected t).map fun i => (i, b.listing t i))) := by
  refine ⟨rfl, rfl, rfl, failures_attempts b t _, ?_, fun fork => ?_, ?_⟩
  · show (Attempts.byFork _).map Prod.fst = _
    rw [byFork_eq ht, List.map_map]
    exact List.map_id _
  · show ((Attempts.byFork _).lookup fork).getD [] = _
    rw [byFork_eq ht, lookup_map_self]
    split
    · rfl
    · rename_i hfork
      rw [List.mem_filter, not_and] at hfork
      by_cases hmem : fork ∈ t.forks
      · have hempty := hfork hmem
        rw [Bool.not_eq_true', Bool.not_eq_false, List.isEmpty_iff] at hempty
        rw [hempty, Option.getD_none]
      · rw [selectedOf_eq_nil ht hmem]
        rfl
  · show (Attempts.failures _).length + ((Attempts.byFork _).flatMap Prod.snd).length = _
    rw [failures_attempts, byFork_attempts ht, flatMap_nonempty, flatMap_blocks, length_failures_successes]

def Alike (b b' : Batch) (t : StateTest) (i : Instance) : Prop :=
  ∀ tx, t.instantiate i = .ok tx →
    (b'.executor (.text i.fork) t.env t.pre tx).result = (b.executor (.text i.fork) t.env t.pre tx).result

variable {b' : Batch}

theorem Alike.listing {i : Instance} (h : b.Alike b' t i) : b'.listing t i = b.listing t i := by
  have hanswer : b'.answer t i = b.answer t i := by
    unfold answer
    cases htx : t.instantiate i with
    | error f => rfl
    | ok tx => rw [ok_bind, ok_bind, h tx htx]
  rw [Batch.listing, Batch.listing, hanswer]

end

/-- A document with the same instances for two forks, one of which names data that the transaction does not
offer. -/
def twoForks : Json :=
  let chosen (data : Int) : Json :=
    .object [("indexes", .object [("data", .int data), ("gas", .int 0), ("value", .int 0)])]
  .object [
    ("pre", .object []),
    ("env", .object [("currentCoinbase", .text "0x01"), ("currentGasLimit", .text "0x10"),
      ("currentNumber", .text "0x02"), ("currentTimestamp", .text "0x03")]),
    ("transaction", .object [("sender", .text "0x0a"), ("secretKey", .text "0x0b"), ("nonce", .text "0x00"),
      ("gasPrice", .text "0x01"), ("gasLimit", .texts ["0x20"]), ("value", .texts ["0x00"]),
      ("data", .texts ["0x", "0x60"])]),
    ("post", .object [("London", .list [chosen 0, chosen 2, chosen 1]),
      ("Paris", .list [chosen 0, chosen 2, chosen 1])])]

def twoForksTest : StateTest where
  name := "test"
  pre := .empty
  env := ⟨0x01, 0x10, 0x02, 0x03, none, none, none, none, .empty, []⟩
  template := ⟨⟨0x0A, 0x0B, none, 0, 0, 0, [], none, 1, .legacy 1⟩, [0x20], [0], [[], [0x60]], none⟩
  instances := [
    ("London", [⟨"London", 0, 0, 0, .null⟩, ⟨"London", 0, 2, 0, .null⟩, ⟨"London", 0, 1, 0, .null⟩]),
    ("Paris", [⟨"Paris", 0, 0, 0, .null⟩, ⟨"Paris", 0, 2, 0, .null⟩, ⟨"Paris", 0, 1, 0, .null⟩])]

def threeWorkers : Batch where
  executor _ _ _ tx :=
    .ofExcept (if tx.data.isEmpty then .error .noRecords else .ok (.ofTrace (.ended .return tx.data)))
  filter := StateTest.everyInstance
  abbreviate := true
  workers := 3
  workers_pos := by decide
  chance left := left

theorem reporting_threeWorkers : threeWorkers.Reporting := by
  intro fork env pre tx f h
  change (if tx.data.isEmpty then Except.error Fault.noRecords else _) = _ at h
  split at h
  · rw [← Except.error.inj h]
    rfl
  · cases h

end Batch

end CallTrace
