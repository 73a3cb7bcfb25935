import CallTrace.Proofs.Batch.Document
import CallTrace.Proofs.Lookup

namespace CallTrace
open Attempt

def listedIds (document : Json) (test fork : Text) : Except Fault (List Json) := do
  let tests ← (← document.field test).field "tests"
  let listed ← (← tests.fieldOr fork (.list [])).items
  listed.mapM (·.field "id")

/-- A document lists every selected instance of every test: each under its own fork, in order. -/
def ListsAll (tests : List StateTest) (p : StateTest.Filter) (document : Json) : Prop :=
  ∀ t ∈ tests, ∀ fork, listedIds document t.name fork =
    .ok (((t.select p).filter (·.fork = fork)).map fun i => .text i.label)

namespace TraceTest

variable [Limits] {abbreviate : Bool}

def HasIds (is : List TracedInstance) (j : Json) : Prop :=
  ∃ items, j = .list items ∧ items.mapM (·.field "id") = .ok (is.map TracedInstance.id)

theorem hasIds_of_forkToJson {f : Text × List TracedInstance} {g : Text × Json}
    (h : forkToJson abbreviate f = .ok g) : g.1 = f.1 ∧ HasIds f.2 g.2 := by
  obtain ⟨items, hitems, h⟩ := bind_eq_ok.1 h
  obtain rfl := Except.ok.inj h
  refine ⟨rfl, items, rfl, mapM_of_mapM hitems fun i _ item hitem => ?_⟩
  obtain ⟨tx, -, hitem⟩ := bind_eq_ok.1 hitem
  obtain rfl := Except.ok.inj hitem
  rfl

theorem exists_tests_of_toJson {t : TraceTest} {document : Json} (h : t.toJson abbreviate = .ok document) :
    ∃ tests, document.field "tests" = .ok (.object tests) ∧
      t.instances.mapM (forkToJson abbreviate) = .ok tests := by
  obtain ⟨pre, -, h⟩ := bind_eq_ok.1 h
  obtain ⟨env, -, h⟩ := bind_eq_ok.1 h
  obtain ⟨tests, htests, h⟩ := bind_eq_ok.1 h
  obtain rfl := Except.ok.inj h
  refine ⟨tests, ?_, htests⟩
  rw [Json.field]
  simp

end TraceTest

namespace Batch

variable {b : Batch} {t : StateTest}

/-- A report that a batch comes to accounts for every selected instance, whatever else could have happened. -/
theorem eq_ofAttempts_of_convert {r : Report} (h : (b.convert t).result = .ok r) :
    r = .ofAttempts t ((b.selected t).map fun i => (i, b.listing t i)) := by
  unfold convert at h
  rw [Run.result_bind] at h
  obtain ⟨as, has, h⟩ := bind_eq_ok.1 h
  have hattempts := Run.mapM_of_result_forEach b.workers_pos has
  have hresults : as = (b.selected t).map fun i => (i, b.listing t i) := by
    have hall := (mapM_eq_ok.1 hattempts).imp fun i a ha => eq_of_result_attempt ha
    rw [← List.forall₂_eq_eq_eq, List.forall₂_map_right_iff]
    exact hall.flip
  rw [← Except.ok.inj h, hresults]

theorem failures_eq_nil_iff {is : List Instance} :
    b.failures t is = [] ↔ ∀ i ∈ is, ∃ traced, b.listing t i = .ok traced := by
  unfold failures
  rw [List.filterMap_eq_nil_iff]
  refine forall₂_congr fun i _ => ?_
  cases b.listing t i <;> simp [Attempts.failure?]

theorem ids_of_successes {is : List Instance} (h : b.failures t is = []) :
    (b.successes t is).map TracedInstance.id = is.map fun i => .text i.label := by
  have hall := failures_eq_nil_iff.1 h
  clear h
  induction is with
  | nil => rfl
  | cons i is ih =>
    obtain ⟨⟨traced, htraced⟩, hall⟩ := List.forall_mem_cons.1 hall
    obtain ⟨tx, result, -, hid⟩ := exists_answer_of_listing htraced
    have hfirst : b.successes t (i :: is) = traced :: b.successes t is := by
      unfold successes
      rw [List.filterMap_cons, htraced]
      rfl
    rw [hfirst, List.map_cons, List.map_cons, hid, ih hall]

/-- All ids of a test stand under its forks exactly if none of its instances failed. -/
theorem ids_eq_iff : (∀ fork, (b.successes t (b.selectedOf t fork)).map TracedInstance.id =
    (b.selectedOf t fork).map fun i => .text i.label) ↔ b.failures t (b.selected t) = [] := by
  constructor
  · intro h
    rw [failures_eq_nil_iff]
    intro i hi
    have hlength := congrArg List.length (h i.fork)
    rw [List.length_map, List.length_map] at hlength
    -- As many came to something as there are under the fork, so none of them failed.
    have hnone : b.failures t (b.selectedOf t i.fork) = [] := by
      have hcount := length_failures_successes b t (b.selectedOf t i.fork)
      exact List.length_eq_zero_iff.1 (by omega)
    exact failures_eq_nil_iff.1 hnone i (List.mem_filter.2 ⟨hi, decide_eq_true rfl⟩)
  · intro h fork
    refine ids_of_successes (failures_eq_nil_iff.2 fun i hi => ?_)
    exact failures_eq_nil_iff.1 h i (List.mem_filter.1 hi).1

section
variable [Limits]

theorem listedIds_of_toJson {document part : Json} {r : Report} {test : Text}
    (hfield : document.field test = .ok part) (hpart : r.test.toJson b.abbreviate = .ok part) (fork : Text) :
    listedIds document test fork = .ok ((r.traced fork).map TracedInstance.id) := by
  obtain ⟨tests, htests, hforks⟩ := TraceTest.exists_tests_of_toJson hpart
  have hlookup := lookup_forall₂ ((mapM_eq_ok.1 hforks).imp fun f g hg => TraceTest.hasIds_of_forkToJson hg) fork
  unfold listedIds
  rw [hfield, ok_bind, htests, ok_bind, Json.fieldOr_object, ok_bind, Fields.value?, Report.traced]
  generalize r.test.instances.lookup fork = traced at hlookup ⊢
  generalize List.lookup fork tests = listed at hlookup ⊢
  cases hlookup with
  | none => rfl
  | some hids =>
    obtain ⟨items, rfl, hitems⟩ := hids
    exact hitems

/-- The document of a fixture lists everything that was asked for exactly if nothing failed. -/
theorem listsAll_iff {fixture : Json} {made : Conversion} {tests : List StateTest}
    (hfixture : fixture.isProper = true) (htests : StateTest.allOfJson fixture = .ok tests)
    (h : (b.convertFixture fixture).result = .ok made) :
    ListsAll tests b.filter made.document ↔ made.failures = [] := by
  obtain ⟨tests', parts, htests', hparts, rfl⟩ := exists_parts_of_convertFixture h
  obtain rfl := Except.ok.inj (htests.symm.trans htests')
  obtain ⟨sources, hsources, hread⟩ := bind_eq_ok.1 htests
  rw [Json.fields_eq_ok] at hsources
  subst hsources
  obtain ⟨hkeys, hproper⟩ := Json.isProper_object.1 hfixture
  have hpartNames : parts.map (·.1.1) = tests.map StateTest.name := map_of_mapM hparts fun t part hpart => by
    obtain ⟨r, -, hname, -⟩ := exists_report_of_convertTest hpart
    exact hname
  have htestNames : tests.map StateTest.name = Fields.keys sources :=
    map_of_mapM hread fun f t ht => (StateTest.exists_parts_of_ofJson ht).1
  -- The tests have different names, so in the document each is found again under its own.
  have hnodup : ((parts.map Prod.fst).map Prod.fst).Nodup := by
    rw [List.map_map]
    show (parts.map (·.1.1)).Nodup
    rwa [hpartNames, htestNames]
  have htest : ∀ t ∈ tests, ∀ part ∈ parts, (b.convertTest t).result = .ok part →
      ((∀ fork, listedIds (.object (parts.map Prod.fst)) t.name fork =
        .ok (((t.select b.filter).filter (·.fork = fork)).map fun i => .text i.label)) ↔ part.2 = []) := by
    intro t ht part hpart hconvert
    obtain ⟨r, hr, hname, hfailures, hdocument⟩ := exists_report_of_convertTest hconvert
    have hfield : (Json.object (parts.map Prod.fst)).field t.name = .ok part.1.2 := by
      rw [Json.field, Fields.value?, lookup_of_mem hnodup (List.mem_map.2 ⟨part, hpart, Prod.ext hname rfl⟩)]
    obtain ⟨source, hsource, hread⟩ := exists_of_mem_mapM hread ht
    have hacc : b.Accounts t r := by
      rw [eq_ofAttempts_of_convert hr]
      exact accounts_ofAttempts (StateTest.filed_of_ofJson (hproper source hsource) hread)
    rw [hfailures, hacc.failures, ← ids_eq_iff]
    refine forall_congr' fun fork => ?_
    rw [listedIds_of_toJson hfield hdocument, hacc.traced, Except.ok.injEq]
    rfl
  rw [List.flatMap_eq_nil_iff]
  constructor
  · intro hall part hpart
    obtain ⟨t, ht, hconvert⟩ := exists_of_mem_mapM hparts hpart
    exact (htest t ht part hpart hconvert).1 (hall t ht)
  · intro hall t ht
    obtain ⟨part, hpart, hconvert⟩ := exists_result_of_mem hparts ht
    exact (htest t ht part hpart hconvert).2 (hall part hpart)

end

end Batch

end CallTrace
