import CallTrace.Proofs.Fault
import CallTrace.Proofs.Json.Brief
import CallTrace.Proofs.Json.Fields
import CallTrace.Proofs.Transaction.Index
import CallTrace.StateTest

namespace CallTrace
open Attempt

theorem Fault.onMissing_eq_ok {wrap : Json → Fault} {x : Except Fault α} {a : α} :
    onMissing wrap x = .ok a ↔ x = .ok a := by
  unfold onMissing
  split <;> simp

theorem Instance.fork_of_ofJson {fork : Text} {j : Json} {i : Instance} (h : ofJson fork j = .ok i) :
    i.fork = fork := by
  obtain ⟨indexes, -, h⟩ := bind_eq_ok.1 (Fault.onMissing_eq_ok.1 h)
  obtain ⟨data, -, h⟩ := bind_eq_ok.1 h
  obtain ⟨gas, -, h⟩ := bind_eq_ok.1 h
  obtain ⟨value, -, h⟩ := bind_eq_ok.1 h
  obtain ⟨expect, -, h⟩ := bind_eq_ok.1 h
  rw [← Except.ok.inj h]

namespace Instance

def isLengthy (i : Instance) : Bool :=
  Number.isLengthy i.gas || Number.isLengthy i.data || Number.isLengthy i.value

def label (i : Instance) : Text :=
  i.fork ++ "_" ++ Text.ofInt i.gas ++ "_" ++ Text.ofInt i.data ++ "_" ++ Text.ofInt i.value

theorem id_eq (i : Instance) : i.id = if i.isLengthy then .error .unwritableNumber else .ok i.label := by
  unfold id isLengthy label Number.decimal
  cases Number.isLengthy i.gas with
  | true => rfl
  | false =>
    cases Number.isLengthy i.data with
    | true => rfl
    | false => cases Number.isLengthy i.value <;> rfl

theorem id_eq_ok {i : Instance} {id : Text} : i.id = .ok id ↔ i.isLengthy = false ∧ id = i.label := by
  rw [id_eq]
  cases i.isLengthy <;> simp [eq_comm]

def number (i : Instance) (key : Text) : Option Int :=
  ([("gas", i.gas), ("data", i.data), ("value", i.value)] : List (Text × Int)).lookup key

theorem indexes_eq (i : Instance) : i.indexes = .ofNumbers i.number := rfl

theorem isLengthy_of_number {i : Instance} {key : Text} {n : Int} (h : i.number key = some n)
    (hlengthy : Number.isLengthy n = true) : i.isLengthy = true := by
  obtain ⟨before, after, hall, -⟩ := List.lookup_eq_some_iff.1 h
  have hmem : (key, n) ∈ ([("gas", i.gas), ("data", i.data), ("value", i.value)] : List (Text × Int)) := by
    simp [hall]
  simp only [List.mem_cons, Prod.mk.injEq, List.not_mem_nil, or_false] at hmem
  rw [isLengthy]
  rcases hmem with ⟨-, rfl⟩ | ⟨-, rfl⟩ | ⟨-, rfl⟩ <;> simp [hlengthy]

end Instance

namespace StateTest

/-- An instance that cannot be instantiated is reported, unless one of its indexes is too long to be told. -/
theorem fault_of_instantiate {t : StateTest} {i : Instance} {f : Fault} (h : t.instantiate i = .error f) :
    f.isInstanceFault = true ∨ (i.isLengthy = true ∧ f = .unwritableNumber) := by
  rw [instantiate, Instance.indexes_eq] at h
  obtain ⟨⟨count, index⟩, hfirst, hcomplains⟩ := TransactionTemplate.instantiate_eq_error h
  by_cases huntold : IsUntold count index
  · obtain ⟨-, n, hn, hlengthy⟩ := id huntold
    refine .inr ⟨?_, hcomplains.untold huntold⟩
    obtain ⟨key, rfl⟩ := exists_key_of_mem_draws (List.mem_of_find?_eq_some hfirst)
    exact Instance.isLengthy_of_number hn hlengthy
  · refine .inl ?_
    rw [Fault.isInstanceFault, hcomplains.told huntold]
    rfl

/-- Each fork stands there once, and each instance under its own fork. -/
structure Filed (t : StateTest) : Prop where
  nodup : t.forks.Nodup
  fork : ∀ g ∈ t.instances, ∀ i ∈ g.2, i.fork = g.1

theorem instancesOf_eq_ok {f : Text × Json} {g : Text × List Instance} (h : instancesOf f = .ok g) :
    g.1 = f.1 ∧ ∀ i ∈ g.2, i.fork = g.1 := by
  obtain ⟨items, -, h⟩ := bind_eq_ok.1 h
  obtain ⟨is, his, h⟩ := bind_eq_ok.1 h
  obtain rfl := Except.ok.inj h
  refine ⟨rfl, fun i hi => ?_⟩
  obtain ⟨j, -, hj⟩ := exists_of_mem_mapM his hi
  exact Instance.fork_of_ofJson hj

/-- What a state test is read from. -/
theorem exists_parts_of_ofJson {name : Text} {j : Json} {t : StateTest} (h : ofJson name j = .ok t) :
    t.name = name ∧ (∃ env, Environment.ofJson env = .ok t.env) ∧
      ∃ fields, j.field "post" = .ok (.object fields) ∧ fields.mapM instancesOf = .ok t.instances := by
  obtain ⟨⟨pre, env, template, post⟩, hparts, h⟩ := bind_eq_ok.1 h
  obtain ⟨_, -, hparts⟩ := bind_eq_ok.1 (Fault.onMissing_eq_ok.1 hparts)
  obtain ⟨_, henv, hparts⟩ := bind_eq_ok.1 hparts
  obtain ⟨_, -, hparts⟩ := bind_eq_ok.1 hparts
  obtain ⟨_, hpost, hparts⟩ := bind_eq_ok.1 hparts
  obtain ⟨rfl, rfl, rfl, rfl⟩ : _ ∧ _ ∧ _ ∧ _ := by simpa using Except.ok.inj hparts
  obtain ⟨fields, hfields, h⟩ := bind_eq_ok.1 h
  obtain ⟨groups, hgroups, h⟩ := bind_eq_ok.1 h
  obtain rfl := Except.ok.inj h
  obtain ⟨env, -, henv⟩ := bind_eq_ok.1 henv
  rw [Json.fields_eq_ok.1 hfields] at hpost
  exact ⟨rfl, ⟨env, henv⟩, fields, hpost, hgroups⟩

theorem filed_of_ofJson {name : Text} {j : Json} {t : StateTest} (hj : j.isProper = true)
    (h : ofJson name j = .ok t) : t.Filed := by
  obtain ⟨-, -, fields, hpost, hgroups⟩ := exists_parts_of_ofJson h
  have hkeys : (Fields.keys fields).Nodup := (Json.isProper_object.1 (Json.isProper_of_field hj hpost)).1
  refine ⟨?_, ?_⟩
  · show (t.instances.map Prod.fst).Nodup
    rwa [map_of_mapM hgroups fun f g hg => (instancesOf_eq_ok hg).1]
  · intro g hg
    obtain ⟨f, -, hf⟩ := exists_of_mem_mapM hgroups hg
    exact (instancesOf_eq_ok hf).2

theorem filter_fork_of_not_mem {groups : List (Text × List Instance)} {fork : Text}
    (hfork : ∀ g ∈ groups, ∀ i ∈ g.2, i.fork = g.1) (h : fork ∉ groups.map Prod.fst) :
    (groups.flatMap Prod.snd).filter (·.fork = fork) = [] := by
  rw [List.filter_eq_nil_iff]
  intro i hi
  obtain ⟨g, hg, hig⟩ := List.mem_flatMap.1 hi
  rw [decide_eq_true_eq, hfork g hg i hig]
  rintro rfl
  exact h (List.mem_map_of_mem hg)

theorem filter_fork_of_mem {groups : List (Text × List Instance)} (hnodup : (groups.map Prod.fst).Nodup)
    (hfork : ∀ g ∈ groups, ∀ i ∈ g.2, i.fork = g.1) {g : Text × List Instance} (hg : g ∈ groups) :
    (groups.flatMap Prod.snd).filter (·.fork = g.1) = g.2 := by
  induction groups with
  | nil => cases hg
  | cons h groups ih =>
    obtain ⟨hkey, hkeys⟩ := List.nodup_cons.1 hnodup
    obtain ⟨hh, hgroups⟩ := List.forall_mem_cons.1 hfork
    rw [List.flatMap_cons, List.filter_append]
    rcases List.mem_cons.1 hg with rfl | hg
    · have hown : g.2.filter (·.fork = g.1) = g.2 := by
        rw [List.filter_eq_self]
        exact fun i hi => decide_eq_true (hh i hi)
      rw [hown, filter_fork_of_not_mem hgroups hkey, List.append_nil]
    · have hnone : h.2.filter (·.fork = g.1) = [] := by
        rw [List.filter_eq_nil_iff]
        intro i hi
        rw [decide_eq_true_eq, hh i hi]
        intro he
        exact hkey (he ▸ List.mem_map_of_mem hg)
      rw [hnone, ih hkeys hgroups hg, List.nil_append]

/-- The selected instances of a fork are those that stand under it. -/
theorem Filed.select_fork {t : StateTest} (ht : t.Filed) (p : Filter) {g : Text × List Instance}
    (hg : g ∈ t.instances) : (t.select p).filter (·.fork = g.1) = g.2.filter p := by
  rw [select, List.filter_comm, filter_fork_of_mem ht.nodup ht.fork hg]

end StateTest

end CallTrace
