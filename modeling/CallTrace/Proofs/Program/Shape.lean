import CallTrace.Proofs.Program.Directory
import CallTrace.Proofs.StateTest.Shape

namespace CallTrace
open Attempt Fixture

namespace Job

section
variable [Limits] {j : Job} {tell : Teller} {c c' : Console} {failed failed' : Nat} {t : Task} {fixture : Json}
  {f : Fault}

/-- A job comes to a file that holds a document, and there is none of it yet in its place. -/
structure Meets (j : Job) (c : Console) (t : Task) (fixture : Json) : Prop where
  pending : ∃ o, j.target t.path = .ok o ∧ j.isDone c.files o = false
  load : Fixture.load c.files t.source = .ok fixture

/-- What cannot be read is what the conversion fails by, and nothing else happens. -/
theorem convert_of_unread (h : j.Meets c t fixture) (hf : StateTest.allOfJson fixture = .error f) :
    j.convert (c.tell t.heading).2 t.source t.path =
      (.error f, (c.tell t.heading).2.absorb (j.document c.files t.source)) := by
  obtain ⟨⟨o, htarget, hpending⟩, hload⟩ := h
  have hresult : (j.document c.files t.source).result = .error f := by
    rw [result_document, conversion, hload, ok_bind, Batch.convertFixture, Run.result_bind,
      Run.result_ofExcept, hf]
    rfl
  unfold convert convertTo
  rw [htarget]
  dsimp only
  rw [Console.files_tell, if_neg (by rw [hpending]; exact Bool.false_ne_true), hresult]

section
variable (h : j.Meets c t fixture) (hf : StateTest.allOfJson fixture = .error f) (hheading : c.shows.Shows t.heading)
include h hf hheading

theorem convertAll_of_untold (failed : Nat) (htold : isTold f = false) (after : List Task) :
    ∃ c', j.convertAll .inLine c failed (t :: after) = ⟨c', .error f⟩ := by
  have htally : tally failed (.error f) = .error f := if_neg (Bool.eq_false_iff.1 htold)
  rw [convertAll, Progress.after_of_ok (by rw [Console.tell_of_shows hheading]), convert_of_unread h hf]
  dsimp only
  rw [htally]
  exact ⟨_, rfl⟩

theorem convertAll_of_told (failed : Nat) (htold : isTold f = true) (after : List Task) :
    ∃ c', j.convertAll .inLine c failed (t :: after) =
      if c.shows.Shows (Teller.line (.error f)) then j.convertAll .inLine c' (failed + 1) after
      else ⟨c', .error .unencodable⟩ := by
  have htally : tally failed (.error f) = .ok (failed + 1) := if_pos htold
  have hline := Teller.result_inLine ((c.tell t.heading).2.absorb (j.document c.files t.source)) t (.error f)
  change _ = if (c.tell t.heading).2.shows.Shows _ then _ else _ at hline
  rw [Console.shows_tell] at hline
  rw [convertAll, Progress.after_of_ok (by rw [Console.tell_of_shows hheading]), convert_of_unread h hf]
  dsimp only
  rw [htally]
  by_cases hshown : c.shows.Shows (Teller.line (.error f))
  · simp only [if_pos hshown] at hline ⊢
    exact ⟨_, Progress.after_of_ok hline⟩
  · simp only [if_neg hshown] at hline ⊢
    exact ⟨_, Progress.after_of_error hline⟩

end

/-- A file that cannot even be named ends the run. -/
theorem convertAll_of_not_headed (failed : Nat) (h : ¬ c.shows.Shows t.heading) (after : List Task) :
    j.convertAll tell c failed (t :: after) = ⟨c, .error .unencodable⟩ := by
  rw [convertAll, Console.tell_of_not_shows h]
  rfl

theorem convertAll_of_breaks (h : j.Meets c t fixture) (hheading : c.shows.Shows t.heading)
    (hbreaks : Shape.fixture.Breaks fixture) (after : List Task) :
    ∃ c' f, j.convertAll .inLine c failed (t :: after) = ⟨c', .error f⟩ ∧ f.Raw := by
  obtain ⟨f, hf, hraw⟩ := (Shape.follows_fixture fixture).breaks.2 hbreaks
  have htold : isTold f = false := by rw [isTold, hraw.1, hraw.2.1, Bool.or_self]
  obtain ⟨c', hrun⟩ := convertAll_of_untold h hf hheading failed htold after
  exact ⟨c', f, hrun, hraw⟩

theorem convertAll_of_reported (h : j.Meets c t fixture) (hheading : c.shows.Shows t.heading)
    (hreads : ¬ Shape.fixture.Reads fixture) (hbreaks : ¬ Shape.fixture.Breaks fixture) (after : List Task) :
    ∃ f c', StateTest.allOfJson fixture = .error f ∧ j.convertAll .inLine c failed (t :: after) =
      if c.shows.Shows (Teller.line (.error f)) then j.convertAll .inLine c' (failed + 1) after
      else ⟨c', .error .unencodable⟩ := by
  cases hf : StateTest.allOfJson fixture with
  | ok tests => exact absurd ((Shape.follows_fixture fixture).reads.1 ⟨tests, hf⟩) hreads
  | error f =>
    have hdomain := (StateTest.allOfJson_reports_iff fixture).2.2 hbreaks f hf
    have htold : isTold f = true := by rw [isTold, hdomain, Bool.true_or]
    obtain ⟨c', hrun⟩ := convertAll_of_told h hf hheading failed htold after
    exact ⟨f, c', rfl, hrun⟩

end

/-- A fixture is read just if its shape can be. If it is not, a fault of the domain says why just if the reader does
not break on the shape; and just then a run over a directory that comes to it goes on, as far as the path of the file
and the fault can be told. -/
theorem convertDirectory_reports_iff (fixture : Json) :
    ((∃ tests, StateTest.allOfJson fixture = .ok tests) ↔ Shape.fixture.Reads fixture) ∧
      ((∀ f, StateTest.allOfJson fixture = .error f → f.isDomain = true) ↔ ¬ Shape.fixture.Breaks fixture) ∧
      ∀ [Limits] (j : Job) (c c' : Console) (directory includes excludes : FlagValue Text) (before after : List Task)
        (t : Task) (failed : Nat), findTasks c.files directory includes excludes = .ok (before ++ t :: after) →
        j.convertAll .inLine c 0 before = ⟨c', .ok failed⟩ → j.Meets c' t fixture →
        (¬ c'.shows.Shows t.heading →
          j.convertDirectory c directory includes excludes = ⟨c', .error .unencodable⟩) ∧
        (c'.shows.Shows t.heading → Shape.fixture.Breaks fixture →
          ∃ c'' f, j.convertDirectory c directory includes excludes = ⟨c'', .error f⟩ ∧ f.Raw) ∧
        (c'.shows.Shows t.heading → ¬ Shape.fixture.Reads fixture → ¬ Shape.fixture.Breaks fixture →
          ∃ f c'', StateTest.allOfJson fixture = .error f ∧ j.convertDirectory c directory includes excludes =
            if c'.shows.Shows (Teller.line (.error f)) then j.convertAll .inLine c'' (failed + 1) after
            else ⟨c'', .error .unencodable⟩) := by
  obtain ⟨hreads, hreports⟩ := StateTest.allOfJson_reports_iff fixture
  refine ⟨hreads, hreports, fun j c c' directory includes excludes before after t failed htasks hbefore hmeets => ?_⟩
  have hrun : j.convertDirectory c directory includes excludes = j.convertAll .inLine c' failed (t :: after) := by
    unfold convertDirectory
    rw [htasks]
    exact convertAll_append hbefore (t :: after)
  rw [hrun]
  exact ⟨fun hheading => convertAll_of_not_headed failed hheading after,
    fun hheading hbreaks => convertAll_of_breaks hmeets hheading hbreaks after,
    fun hheading hreads hbreaks => convertAll_of_reported hmeets hheading hreads hbreaks after⟩

def brokenDirectory : Console where
  files := ⟨((FileTree.empty.putFile ["fix", "a.json"] "\x7b\"t\": \x7b\"pre\": []\x7d\x7d" false).putFile
    ["fix", "b.json"] "\x7b\x7d" false), []⟩

/-- The run ends at the first, before it comes to the second. -/
theorem convertDirectory_reports_iff_brokenDirectory : letI : Limits := .unbounded
    ∃ c f, packingJob.convertDirectory brokenDirectory (.given "fix") .absent .absent = ⟨c, .error f⟩ ∧ f.Raw := by
  let _ : Limits := .unbounded
  have hbelow : filesBelow brokenDirectory.files "fix" = .ok ["a.json", "b.json"] :=
    eq_ok_of_toOption (by decide +kernel)
  have hfind : Fixture.find brokenDirectory.files "fix" .defaultIncludes .defaultExcludes =
      .ok ["a.json", "b.json"] := find_of_perm hbelow (by decide +kernel) (by decide +kernel)
  have htasks : findTasks brokenDirectory.files (.given "fix") .absent .absent =
      .ok (directoryTasks "fix" ["a.json", "b.json"]) := by
    rw [findTasks_given rfl rfl, hfind]
    rfl
  have hbreaks : Shape.fixture.Breaks StateTest.listedState :=
    (Shape.follows_fixture StateTest.listedState).breaks.1 ⟨.noFields, rfl, Fault.raw_noFields⟩
  have hmeets : packingJob.Meets brokenDirectory ⟨"fix/a.json", "a.json", heading 0 2 "a.json"⟩
      StateTest.listedState := ⟨⟨_, rfl, rfl⟩, rfl⟩
  obtain ⟨-, -, hrun⟩ := convertDirectory_reports_iff StateTest.listedState
  exact (hrun packingJob brokenDirectory brokenDirectory (.given "fix") .absent .absent [] _ _ 0 htasks rfl hmeets).2.1
    (by decide +kernel) hbreaks

end Job

end CallTrace
