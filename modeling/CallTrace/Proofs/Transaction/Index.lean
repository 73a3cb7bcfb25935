import CallTrace.Proofs.Attempt
import CallTrace.Transaction.Template

namespace CallTrace
open Attempt

section
variable {α : Type} {items : List α} {index : Option Int} {item : α}

def Points (items : List α) (index : Option Int) (item : α) : Prop :=
  ∃ i : Nat, index = some (i : Int) ∧ items[i]? = some item

/-- An index that points at none of so many items, because it is missing, counts from the end or is too large. -/
def Misses (count : Nat) (index : Option Int) : Prop := ∀ i ∈ index, ¬ (0 ≤ i ∧ i < count)

instance (count : Nat) (index : Option Int) : Decidable (Misses count index) :=
  inferInstanceAs (Decidable (∀ i ∈ index, ¬ (0 ≤ i ∧ i < count)))

theorem Points.not_misses (h : Points items index item) : ¬ Misses items.length index := by
  obtain ⟨i, rfl, hitem⟩ := h
  obtain ⟨hlt, -⟩ := List.getElem?_eq_some_iff.1 hitem
  exact fun hmisses => hmisses i rfl ⟨Int.natCast_nonneg i, Int.ofNat_lt.2 hlt⟩

theorem exists_points_of_not_misses (h : ¬ Misses items.length index) : ∃ item, Points items index item := by
  simp only [Misses, not_forall, not_not] at h
  obtain ⟨i, hi, hlow, hhigh⟩ := h
  have hlt : i.toNat < items.length := by omega
  exact ⟨items[i.toNat], i.toNat, by rw [Int.toNat_of_nonneg hlow]; exact hi, List.getElem?_eq_getElem hlt⟩

end

/-- Where there is anything to choose from, an index that misses is told, which it may be too long for. -/
def IsUntold (count : Nat) (index : Option Int) : Prop := 0 < count ∧ ∃ n ∈ index, Number.isLengthy n = true

structure Complains (count : Nat) (index : Option Int) (f : Fault) : Prop where
  told : ¬ IsUntold count index → f.family? = some .validation
  untold : IsUntold count index → f = .unwritableNumber

def Indexes.ofNumbers (index : Text → Option Int) : Indexes :=
  ⟨(index "gas").map .int, (index "data").map .int, (index "value").map .int⟩

/-- From how many items each index picks, in the order in which they are picked. -/
def draws (gasLimits values datas : Nat) (accessLists : Option Nat) (index : Text → Option Int) :
    List (Nat × Option Int) :=
  [(gasLimits, index "gas"), (values, index "value"), (datas, index "data")] ++
    (accessLists.map (·, index "data")).toList

theorem exists_key_of_mem_draws {gasLimits values datas : Nat} {accessLists : Option Nat}
    {index : Text → Option Int} {d : Nat × Option Int} (h : d ∈ draws gasLimits values datas accessLists index) :
    ∃ key, d.2 = index key := by
  simp only [draws, List.mem_append, List.mem_cons, List.not_mem_nil, or_false, Option.mem_toList,
    Option.map_eq_some_iff] at h
  rcases h with (rfl | rfl | rfl) | ⟨_, -, rfl⟩
  exacts [⟨_, rfl⟩, ⟨_, rfl⟩, ⟨_, rfl⟩, ⟨_, rfl⟩]

def firstMiss? (ds : List (Nat × Option Int)) : Option (Nat × Option Int) := ds.find? fun d => Misses d.1 d.2

namespace TransactionTemplate

section
variable {α : Type} {name key : Text} {items : List α} {index : Option Int} {item : α} {f : Fault}

theorem isIndex_whole (n : Int) (count : Nat) : isIndex (.whole n) count = decide (0 ≤ n ∧ n < count) := by
  rw [isIndex, Number.zero, Number.isAtMost_whole, Number.isBelow_whole, Bool.decide_and]

theorem outside_int (name key : Text) (count : Nat) (n : Int) : (outside name key count (.int n) : Except Fault α) =
    if Number.isLengthy n then .error .unwritableNumber else .error (.indexOutOfRange key (.int n) count name) := by
  unfold outside Json.writable Json.isLengthy
  cases Number.isLengthy n <;> rfl

theorem pickAt_int (name key : Text) (items : List α) (n : Int) : pickAt name key items (.int n) =
    if 0 ≤ n ∧ n < items.length then (items[n.toNat]?).elim (outside name key items.length (.int n)) .ok
    else outside name key items.length (.int n) := by
  have hindex := isIndex_whole n items.length
  show (if !isIndex (.whole n) items.length then _ else _) = _
  by_cases hin : 0 ≤ n ∧ n < items.length
  · rw [hindex, decide_eq_true hin, if_pos hin]
    rfl
  · rw [hindex, decide_eq_false hin, if_neg hin]
    rfl

theorem pick_of_points (h : Points items index item) : pick name key items (index.map .int) = .ok item := by
  obtain ⟨i, rfl, hitem⟩ := h
  obtain ⟨hlt, -⟩ := List.getElem?_eq_some_iff.1 hitem
  have hne : items.isEmpty = false := by
    rw [List.isEmpty_eq_false_iff]
    exact List.ne_nil_of_length_pos (Nat.zero_lt_of_lt hlt)
  show (if items.isEmpty then _ else pickAt name key items (.int i)) = _
  rw [hne, if_neg Bool.false_ne_true, pickAt_int, if_pos ⟨Int.natCast_nonneg i, Int.ofNat_lt.2 hlt⟩,
    Int.toNat_natCast, hitem]
  rfl

theorem pick_of_misses (name key : Text) (h : Misses items.length index) :
    ∃ f, pick name key items (index.map .int) = .error f ∧ Complains items.length index f := by
  cases index with
  | none => exact ⟨.missingIndex key, rfl, fun _ => rfl, fun ⟨_, _, hnone, _⟩ => nomatch hnone⟩
  | some n =>
    show ∃ f, (if items.isEmpty then _ else pickAt name key items (.int n)) = .error f ∧ _
    by_cases hempty : items.isEmpty = true
    · rw [if_pos hempty]
      have hcount : items.length = 0 := by rw [List.isEmpty_iff.1 hempty, List.length_nil]
      exact ⟨.noChoices name, rfl, fun _ => rfl, fun ⟨hpos, _⟩ => absurd hcount (Nat.ne_of_gt hpos)⟩
    · have hpos : 0 < items.length := by
        rw [List.isEmpty_iff] at hempty
        exact List.length_pos_iff.2 hempty
      rw [if_neg hempty, pickAt_int, if_neg (h n rfl), outside_int]
      by_cases hlengthy : Number.isLengthy n = true
      · rw [if_pos hlengthy]
        exact ⟨_, rfl, fun htold => absurd ⟨hpos, n, rfl, hlengthy⟩ htold, fun _ => rfl⟩
      · rw [if_neg hlengthy]
        refine ⟨_, rfl, fun _ => rfl, fun ⟨_, m, hm, hlong⟩ => ?_⟩
        obtain rfl := Option.some.inj hm
        exact absurd hlong hlengthy

theorem pick_eq_ok : pick name key items (index.map .int) = .ok item ↔ Points items index item := by
  refine ⟨fun h => ?_, pick_of_points⟩
  by_cases hmisses : Misses items.length index
  · obtain ⟨f, hf, -⟩ := pick_of_misses name key hmisses
    rw [hf] at h
    cases h
  · obtain ⟨other, hother⟩ := exists_points_of_not_misses hmisses
    rw [pick_of_points hother] at h
    obtain rfl := Except.ok.inj h
    exact hother

theorem pick_eq_error (h : pick name key items (index.map .int) = .error f) :
    Misses items.length index ∧ Complains items.length index f := by
  by_cases hmisses : Misses items.length index
  · obtain ⟨f', hf', hcomplains⟩ := pick_of_misses name key hmisses
    obtain rfl := Except.error.inj (h.symm.trans hf')
    exact ⟨hmisses, hcomplains⟩
  · obtain ⟨item, hitem⟩ := exists_points_of_not_misses hmisses
    rw [pick_of_points hitem] at h
    cases h

/-- Of picks one after the other the first that fails is that of the first index that misses. -/
theorem exists_firstMiss?_of_pick {β : Type} {next : α → Except Fault β} {ds : List (Nat × Option Int)}
    (h : (pick name key items (index.map .int) >>= next) = .error f)
    (hnext : ∀ a, next a = .error f → ∃ d, firstMiss? ds = some d ∧ Complains d.1 d.2 f) :
    ∃ d, firstMiss? ((items.length, index) :: ds) = some d ∧ Complains d.1 d.2 f := by
  rcases bind_eq_error.1 h with h | ⟨item, hitem, h⟩
  · obtain ⟨hmisses, hcomplains⟩ := pick_eq_error h
    exact ⟨_, List.find?_cons_of_pos (decide_eq_true hmisses), hcomplains⟩
  · rw [firstMiss?, List.find?_cons_of_neg (by simpa using (pick_eq_ok.1 hitem).not_misses)]
    exact hnext item h

end

variable {t : TransactionTemplate} {index : Text → Option Int} {f : Fault}

def draws (t : TransactionTemplate) (index : Text → Option Int) : List (Nat × Option Int) :=
  CallTrace.draws t.gasLimits.length t.values.length t.datas.length (t.accessLists.map List.length) index

/-- Indexes are refused because of the first one that misses. -/
theorem instantiate_eq_error (h : t.instantiate (.ofNumbers index) = .error f) :
    ∃ d, firstMiss? (t.draws index) = some d ∧ Complains d.1 d.2 f := by
  unfold draws CallTrace.draws
  rw [List.cons_append, List.cons_append, List.cons_append, List.nil_append]
  refine exists_firstMiss?_of_pick h fun _ h => exists_firstMiss?_of_pick h fun _ h =>
    exists_firstMiss?_of_pick h fun _ h => ?_
  rcases bind_eq_error.1 h with h | ⟨accessList, -, h⟩
  · unfold pickAccessList at h
    split at h
    · cases h
    · rename_i lists hlists
      rw [hlists]
      exact exists_firstMiss?_of_pick h fun _ h => nomatch h
  · cases h

end TransactionTemplate

end CallTrace
