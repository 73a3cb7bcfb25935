import CallTrace.Proofs.Batch.Document
import CallTrace.Proofs.Lookup

namespace CallTrace
open Attempt

def Conversion.joined (parts : List ((Text × Json) × List Failure)) : Conversion :=
  ⟨.object (parts.map Prod.fst), parts.flatMap Prod.snd⟩

namespace Batch

/-- A batch that asks the same executor for the same instances and writes the answers alike, with any workers. -/
structure Same (b b' : Batch) : Prop where
  executor : b'.executor = b.executor
  filter : b'.filter = b.filter
  abbreviate : b'.abbreviate = b.abbreviate

section
variable [Limits] {b : Batch} {fields : Fields} {f : Text × Json} {part : (Text × Json) × List Failure}

/-- What a test of a fixture comes to by itself: the document of its report under its own name, and the failures
in the report. -/
def Makes (b : Batch) (f : Text × Json) (part : (Text × Json) × List Failure) : Prop :=
  ∃ t r, StateTest.ofJson f.1 f.2 = .ok t ∧ (b.convert t).result = .ok r ∧ part.1.1 = f.1 ∧
    r.test.toJson b.abbreviate = .ok part.1.2 ∧ part.2 = r.failures

theorem makes_iff : b.Makes f part ↔ (StateTest.ofJson f.1 f.2 >>= fun t => (b.convertTest t).result) = .ok part := by
  rw [bind_eq_ok]
  constructor
  · rintro ⟨t, r, ht, hr, hname, hdocument, hfailures⟩
    obtain ⟨⟨name, document⟩, failures⟩ := part
    obtain ⟨htest, -⟩ := StateTest.exists_parts_of_ofJson ht
    refine ⟨t, ht, ?_⟩
    unfold convertTest
    rw [Run.result_bind, hr, ok_bind, Run.result_bind, Run.result_ofExcept, hdocument, ok_bind, htest]
    dsimp only at hname hfailures
    rw [hname, hfailures]
    rfl
  · rintro ⟨t, ht, hpart⟩
    obtain ⟨r, hr, hname, hfailures, hdocument⟩ := exists_report_of_convertTest hpart
    obtain ⟨htest, -⟩ := StateTest.exists_parts_of_ofJson ht
    exact ⟨t, r, ht, hr, hname.trans htest, hdocument, hfailures⟩

theorem Makes.unique {part' : (Text × Json) × List Failure} (h : b.Makes f part) (h' : b.Makes f part') :
    part = part' := Except.ok.inj ((makes_iff.1 h).symm.trans (makes_iff.1 h'))

theorem Makes.of_same {b' : Batch} (hb : b.Reporting) (hsame : b.Same b') (h : b.Makes f part) : b'.Makes f part := by
  obtain ⟨t, r, ht, hr, hname, hdocument, hfailures⟩ := h
  refine ⟨t, r, ht, ?_, hname, ?_, hfailures⟩
  · rw [result_convert_congr hb hsame.executor hsame.filter, hr]
  · rw [hsame.abbreviate, hdocument]

theorem keys_of_makes {parts : List ((Text × Json) × List Failure)} (h : List.Forall₂ b.Makes fields parts) :
    Fields.keys (parts.map Prod.fst) = fields.keys := by
  induction h with
  | nil => rfl
  | cons hpart _ ih =>
    obtain ⟨-, -, -, -, hname, -, -⟩ := hpart
    exact List.cons_eq_cons.2 ⟨hname, ih⟩

/-- To read all tests and then convert them is to read and convert each by itself, if all of it comes off. -/
theorem forall₂_makes_iff {parts : List ((Text × Json) × List Failure)} : List.Forall₂ b.Makes fields parts ↔
    ∃ tests, StateTest.allOfJson (.object fields) = .ok tests ∧
      tests.mapM (fun t => (b.convertTest t).result) = .ok parts := by
  show _ ↔ ∃ tests, fields.mapM (fun f => StateTest.ofJson f.1 f.2) = .ok tests ∧ _
  rw [← mapM_bind_eq_ok, mapM_eq_ok]
  exact ⟨fun h => h.imp fun _ _ => makes_iff.1, fun h => h.imp fun _ _ => makes_iff.2⟩

theorem result_convertFixture_eq_ok {c : Conversion} : (b.convertFixture (.object fields)).result = .ok c ↔
    ∃ parts, List.Forall₂ b.Makes fields parts ∧ c = .joined parts := by
  constructor
  · intro h
    obtain ⟨tests, parts, htests, hparts, rfl⟩ := exists_parts_of_convertFixture h
    exact ⟨parts, forall₂_makes_iff.2 ⟨tests, htests, hparts⟩, rfl⟩
  · rintro ⟨parts, hmakes, rfl⟩
    obtain ⟨tests, htests, hparts⟩ := forall₂_makes_iff.1 hmakes
    unfold convertFixture
    rw [Run.result_bind, Run.result_ofExcept, htests, ok_bind, Run.result_bind, Run.result_mapM, hparts]
    rfl

/-- Nothing is run of a fixture with a test that cannot be read. -/
theorem convertFixture_of_unreadable {before after : Fields} {e : Fault}
    (hbefore : ∀ g ∈ before, ∃ t, StateTest.ofJson g.1 g.2 = .ok t) (h : StateTest.ofJson f.1 f.2 = .error e) :
    b.convertFixture (.object (before ++ f :: after)) = ⟨.error e, [], []⟩ := by
  have hall : StateTest.allOfJson (.object (before ++ f :: after)) = .error e :=
    mapM_eq_error.2 ⟨before, f, after, rfl, hbefore, h⟩
  unfold convertFixture
  rw [hall]
  rfl

/-- Under its name a document holds what the test of that name comes to. -/
theorem exists_makes_of_mem {c : Conversion} (hkeys : fields.keys.Nodup)
    (h : (b.convertFixture (.object fields)).result = .ok c) (hf : f ∈ fields) :
    ∃ part, b.Makes f part ∧ c.document.field f.1 = .ok part.1.2 := by
  obtain ⟨parts, hmakes, rfl⟩ := result_convertFixture_eq_ok.1 h
  rw [← keys_of_makes hmakes] at hkeys
  have hall := mapM_eq_ok.2 (hmakes.imp fun _ _ => makes_iff.1)
  obtain ⟨part, hpart, hmade⟩ := exists_result_of_mem hall hf
  have hname : part.1.1 = f.1 := by
    obtain ⟨-, -, -, -, hname, -, -⟩ := makes_iff.2 hmade
    exact hname
  refine ⟨part, makes_iff.2 hmade, Json.field_object ?_⟩
  rw [← hname]
  exact lookup_of_mem hkeys (List.mem_map_of_mem hpart)

/-- A fixture is read as a whole before anything is run, and its tests do not influence one another. The first test
that cannot be read is what it comes to, and nothing is run. Otherwise it comes to what its tests come to by
themselves, in their order and under their names, whichever batch of the same kind converts them, and to nothing
only if one of them does. So among whatever other tests a test has the same document. -/
theorem convertFixture_joins (hb : b.Reporting) (fields : Fields) :
    (∀ before f after e, fields = before ++ f :: after →
      (∀ g ∈ before, ∃ t, StateTest.ofJson g.1 g.2 = .ok t) → StateTest.ofJson f.1 f.2 = .error e →
        b.convertFixture (.object fields) = ⟨.error e, [], []⟩) ∧
    (∀ c, (b.convertFixture (.object fields)).result = .ok c ↔
      ∃ parts, List.Forall₂ b.Makes fields parts ∧ c = .joined parts) ∧
    (∀ parts, List.Forall₂ b.Makes fields parts → Fields.keys (parts.map Prod.fst) = fields.keys ∧
      ∀ b', b.Same b' → List.Forall₂ (fun f part =>
        (b'.convertFixture (.object [f])).result = .ok (.joined [part])) fields parts) ∧
    ∀ (others : Fields) c c' f, fields.keys.Nodup → others.keys.Nodup → f ∈ fields → f ∈ others →
      (b.convertFixture (.object fields)).result = .ok c → (b.convertFixture (.object others)).result = .ok c' →
        ∃ document, c.document.field f.1 = .ok document ∧ c'.document.field f.1 = .ok document := by
  refine ⟨?_, fun c => result_convertFixture_eq_ok, fun parts hparts => ⟨keys_of_makes hparts, ?_⟩, ?_⟩
  · rintro before f after e rfl hbefore hf
    exact convertFixture_of_unreadable hbefore hf
  · intro b' hsame
    refine hparts.imp fun f part hpart => result_convertFixture_eq_ok.2 ⟨[part], ?_, rfl⟩
    exact .cons (hpart.of_same hb hsame) .nil
  · intro others c c' f hkeys hkeys' hf hf' hc hc'
    obtain ⟨part, hpart, hfield⟩ := exists_makes_of_mem hkeys hc hf
    obtain ⟨part', hpart', hfield'⟩ := exists_makes_of_mem hkeys' hc' hf'
    obtain rfl := hpart.unique hpart'
    exact ⟨part.1.2, hfield, hfield'⟩

end

def twoForksReport (name : Text) : Report :=
  let t : StateTest := { twoForksTest with name := name }
  .ofAttempts t ((threeWorkers.selected t).map fun i => (i, threeWorkers.listing t i))

theorem exists_makes_twoForks (name : Text)
    (h : (@TraceTest.toJson .unbounded true (twoForksReport name).test).toOption.isSome = true) :
    ∃ part, @Makes .unbounded threeWorkers (name, twoForks) part := by
  let t : StateTest := { twoForksTest with name := name }
  obtain ⟨document, hdocument⟩ := Option.isSome_iff_exists.1 h
  have hmeets : threeWorkers.meetsLengthy twoForksTest = false := by decide +kernel
  have hr : (threeWorkers.convert t).result = .ok (twoForksReport name) :=
    result_convert_of_not_meets reporting_threeWorkers hmeets
  exact ⟨((name, document), (twoForksReport name).failures), t, _, rfl, hr, rfl, eq_ok_of_toOption hdocument, rfl⟩

/-- The same test under two names, and then with a test in between that cannot be read. -/
theorem convertFixture_joins_twoForks : threeWorkers.Reporting ∧
    (∃ parts, (@convertFixture .unbounded threeWorkers (.object [("left", twoForks), ("right", twoForks)])).result =
      .ok (.joined parts) ∧ Fields.keys (parts.map Prod.fst) = ["left", "right"]) ∧
    @convertFixture .unbounded threeWorkers (.object [("left", twoForks), ("bad", .null), ("right", twoForks)]) =
      ⟨.error .unsuited, [], []⟩ := by
  obtain ⟨left, hleft⟩ := exists_makes_twoForks "left" (by decide +kernel)
  obtain ⟨right, hright⟩ := exists_makes_twoForks "right" (by decide +kernel)
  have hmakes := List.Forall₂.cons hleft (.cons hright .nil)
  obtain ⟨-, hconvert, hkeys, -⟩ := @convertFixture_joins .unbounded _ reporting_threeWorkers
    [("left", twoForks), ("right", twoForks)]
  obtain ⟨hunreadable, -⟩ := @convertFixture_joins .unbounded _ reporting_threeWorkers
    [("left", twoForks), ("bad", .null), ("right", twoForks)]
  refine ⟨reporting_threeWorkers, ⟨[left, right], (hconvert _).2 ⟨_, hmakes, rfl⟩, (hkeys _ hmakes).1⟩, ?_⟩
  refine hunreadable [("left", twoForks)] ("bad", .null) [("right", twoForks)] .unsuited rfl ?_ rfl
  intro g hg
  obtain rfl := List.mem_singleton.1 hg
  exact ⟨{ twoForksTest with name := "left" }, rfl⟩

end Batch

end CallTrace
