import CallTrace.Program.Job
import CallTrace.Proofs.Fixture
import CallTrace.Proofs.Json.Writer
import CallTrace.Proofs.Output
import CallTrace.Proofs.Program.Console
import CallTrace.Proofs.Run

namespace CallTrace
open Attempt

namespace Teller

/-- A fault is remarked on where warnings go. -/
theorem exists_stderr_remarked (c : Console) (t : Task) (r : Except Fault Status) :
    ∃ warned, remarked c t r = { c with stderr := warned } := by
  cases r with
  | ok s => exact ⟨c.stderr, rfl⟩
  | error f => exact ⟨_, rfl⟩

variable {c : Console} {t : Task} {r : Except Fault Status}

@[simp] theorem files_inLine (c : Console) (t : Task) (r : Except Fault Status) : (inLine c t r).2.files = c.files := by
  obtain ⟨warned, h⟩ := exists_stderr_remarked c t r
  rw [inLine, Console.files_tell, h]

/-- The line of a file is told just if it can be. -/
theorem result_inLine (c : Console) (t : Task) (r : Except Fault Status) :
    (inLine c t r).1 = if c.shows.Shows (line r) then .ok () else .error .unencodable := by
  obtain ⟨warned, h⟩ := exists_stderr_remarked c t r
  rw [inLine, Console.result_tell, h]

theorem files_apart (c : Console) (t : Task) (r : Except Fault Status) : (apart c t r).2.files = c.files := by
  cases r with
  | error f => rfl
  | ok s =>
    show (s.failures.foldl _ c).files = c.files
    induction s.failures generalizing c with
    | nil => rfl
    | cons f failures ih => exact ih _

end Teller

namespace Progress

variable {p : Progress} {c : Console} {told : Except Fault Unit × Console} {next : Console → Progress}

theorem after_of_ok (h : told.1 = .ok ()) : after told next = next told.2 := by
  rw [after, h]

theorem after_of_error {f : Fault} (h : told.1 = .error f) : after told next = ⟨told.2, .error f⟩ := by
  rw [after, h]

/-- A run that ends in no fault told all that it had to. -/
theorem after_eq_ok {n : Nat} (h : after told next = ⟨c, .ok n⟩) : told.1 = .ok () ∧ next told.2 = ⟨c, .ok n⟩ := by
  unfold after at h
  split at h
  · rename_i htold
    exact ⟨htold, h⟩
  · cases (Progress.mk.inj h).2

theorem status_eq_zero_iff : p.status = .ok 0 ↔ p.failed = .ok 0 := by
  rw [status, map_eq_ok]
  constructor
  · rintro ⟨n, hn, hzero⟩
    split at hzero
    · rwa [‹n = 0›] at hn
    · cases hzero
  · intro h
    exact ⟨0, h, rfl⟩

end Progress

namespace Job

variable [Limits] {j : Job} {fs fs' : Files} {source out path : Text}

theorem document_congr (h : fs'.contents source = fs.contents source) :
    j.document fs' source = j.document fs source := by
  have hload : Fixture.load fs' source = Fixture.load fs source := by
    unfold Fixture.load Fixture.fileText Files.readPacked Files.readPlain
    rw [h]
  unfold document
  rw [hload]

def conversion (j : Job) (fs : Files) (source : Text) : Except Fault Conversion := do
  let fixture ← Fixture.load fs source
  (j.batch.convertFixture fixture).result

theorem result_document (j : Job) (fs : Files) (source : Text) : (j.document fs source).result = do
    let made ← j.conversion fs source
    let document ← made.document.writable
    return (document.dump j.pretty, made.failures) := by
  unfold document conversion
  rw [Run.result_bind, Run.result_ofExcept]
  cases Fixture.load fs source with
  | error f => rfl
  | ok fixture =>
    rw [ok_bind, ok_bind, Run.result_bind]
    congr 1
    funext made
    rw [Run.result_bind, Run.result_ofExcept]
    rfl

theorem document_eq_ok {text : Text} {failures : List Failure}
    (h : (j.document fs source).result = .ok (text, failures)) :
    ∃ made, j.conversion fs source = .ok made ∧ text = made.document.dump j.pretty ∧ failures = made.failures := by
  rw [result_document] at h
  obtain ⟨made, hmade, h⟩ := bind_eq_ok.1 h
  obtain ⟨document, hdocument, h⟩ := bind_eq_ok.1 h
  obtain ⟨rfl, rfl⟩ := Prod.mk.inj (Except.ok.inj h)
  unfold Json.writable at hdocument
  split at hdocument
  · cases hdocument
  · obtain rfl := Except.ok.inj hdocument
    exact ⟨made, hmade, rfl, rfl⟩

theorem utf8?_of_document {text : Text} {failures : List Failure}
    (h : (j.document fs source).result = .ok (text, failures)) : text.utf8?.isSome = true := by
  obtain ⟨made, -, rfl, -⟩ := document_eq_ok h
  exact Text.utf8?_of_isAscii (Json.isAscii_dump j.pretty made.document)

omit [Limits] in
/-- No file has failed yet only if the last one came out clean, too. -/
theorem clean_of_tally {failed failed' : Nat} {result : Except Fault Status} (h : tally failed result = .ok failed')
    (hzero : failed' = 0) : failed = 0 ∧ ∃ s, result = .ok s ∧ s.failures = [] := by
  subst hzero
  cases result with
  | error f =>
    have hcount : (if isTold f then .ok (failed + 1) else .error f : Except Fault Nat) = .ok 0 := h
    split at hcount <;> cases hcount
  | ok s =>
    have hcount : (if s.isClean then failed else failed + 1) = 0 := Except.ok.inj h
    split at hcount
    · rename_i hclean
      exact ⟨hcount, s, rfl, List.isEmpty_iff.1 hclean⟩
    · cases hcount

theorem convertAll_append {tell : Teller} {c c' : Console} {failed failed' : Nat} {before : List Task}
    (h : j.convertAll tell c failed before = ⟨c', .ok failed'⟩) (after : List Task) :
    j.convertAll tell c failed (before ++ after) = j.convertAll tell c' failed' after := by
  induction before generalizing c failed with
  | nil =>
    obtain ⟨rfl, hfailed⟩ := Progress.mk.inj h
    rw [Except.ok.inj hfailed, List.nil_append]
  | cons t before ih =>
    rw [List.cons_append, convertAll]
    rw [convertAll] at h
    obtain ⟨hheading, h⟩ := Progress.after_eq_ok h
    rw [Progress.after_of_ok hheading]
    -- Whatever the first file comes to, both runs go on from there.
    generalize j.convert (c.tell t.heading).2 t.source t.path = converted at h
    obtain ⟨result, c⟩ := converted
    dsimp only at h ⊢
    cases htally : tally failed result with
    | error f =>
      rw [htally] at h
      cases (Progress.mk.inj h).2
    | ok failed =>
      rw [htally] at h
      obtain ⟨hline, h⟩ := Progress.after_eq_ok h
      dsimp only
      rw [Progress.after_of_ok hline]
      exact ih h

def outputFor (j : Job) (out path : Text) : Output := { path := outputPath out path j.packed, packed := j.packed }

/-- What becomes of a file: its document is there already, or there is none, or it is put where it belongs. -/
theorem convert_cases (hout : j.out = .given out) (c : Console) (source path : Text) :
    (j.incremental = true ∧ c.files.holds (outputPath out path j.packed) = true ∧
      j.convert c source path = (.ok .skipped, c)) ∨
    (∃ f, (j.document c.files source).result = .error f ∧
      j.convert c source path = (.error f, c.absorb (j.document c.files source))) ∨
    ∃ text failures, (j.document c.files source).result = .ok (text, failures) ∧
      (j.incremental = true → c.files.holds (outputPath out path j.packed) = false) ∧
      j.convert c source path =
        (((j.outputFor out path).session c.files [text]).result.map fun _ => .converted text.length failures,
          { c.absorb (j.document c.files source) with
            files := ((j.outputFor out path).session c.files [text]).files }) := by
  have htarget : j.target path = .ok (some (j.outputFor out path)) := by
    unfold target
    rw [hout]
    rfl
  unfold convert convertTo
  rw [htarget]
  dsimp only
  cases hdone : j.isDone c.files (some (j.outputFor out path)) with
  | true =>
    rw [isDone, Bool.and_eq_true] at hdone
    exact .inl ⟨hdone.1, hdone.2, rfl⟩
  | false =>
    have hmissing : j.incremental = true → c.files.holds (outputPath out path j.packed) = false := by
      intro hincremental
      rw [isDone, hincremental, Bool.true_and] at hdone
      exact hdone
    rw [if_neg Bool.false_ne_true]
    cases hresult : (j.document c.files source).result with
    | error f => exact .inr (.inl ⟨f, rfl, rfl⟩)
    | ok made =>
      obtain ⟨text, failures⟩ := made
      refine .inr (.inr ⟨text, failures, rfl, hmissing, ?_⟩)
      dsimp only [deliver]
      rw [Console.files_absorb]
      cases ((j.outputFor out path).session c.files [text]).result <;> rfl

end Job

end CallTrace
