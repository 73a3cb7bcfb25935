import CallTrace.Proofs.Program.Directory
import Mathlib.Logic.Relation

namespace CallTrace
open Attempt Fixture

namespace Job

section
variable [Limits] (j : Job) (fs : Files) (directory out : Text)

/-- What the conversion of a file does to the files. -/
inductive Step (path : Text) (now after : Files) : Prop where
  /-- Nothing is put anywhere. -/
  | idle (grown : Files.Grown (j.IsPassed fs directory out [path]) (fun _ _ => False) now after)
  /-- The document for the file is put in its place and found there, unless one is left alone. -/
  | putting (missing : j.incremental = true → now.holds (outputPath out path j.packed) = false)
      (found : after.holds (outputPath out path j.packed) = true)
      (grown : Files.Grown (j.IsPassed fs directory out [path]) (j.IsDocument fs directory out [path]) now after)

def Goes (paths : List Text) : Files → Files → Prop :=
  Relation.ReflTransGen fun now after => ∃ path ∈ paths, j.Step fs directory out path now after

/-- Nothing is said to have failed about a file: its document was there already, or is there now and complete. -/
def IsSettled (now : Files) (path : Text) : Prop :=
  (j.incremental = true ∧ ∃ e, now.tree.find? (j.goal fs out path) = some e) ∨
    ∃ text, j.outcome fs directory path = .ok (text, []) ∧
      now.tree.find? (j.goal fs out path) = some (.file text j.packed)

def IsFound (now : Files) (path : Text) : Prop :=
  ∀ text, now.tree.find? (j.goal fs out path) = some (.file text j.packed) →
    now.holds (outputPath out path j.packed) = true

end

section
variable [Limits] {j : Job} {fs : Files} {directory out : Text} {paths : List Text} {path path' : Text}
  {now after : Files} {made : Place → Prop} {put : Place → FileEntry → Prop}

theorem Step.grown (h : j.Step fs directory out path now after) (hpath : path ∈ paths) :
    Files.Grown (j.IsPassed fs directory out paths) (j.IsDocument fs directory out paths) now after := by
  have hpassed : ∀ p, j.IsPassed fs directory out [path] p → j.IsPassed fs directory out paths p := by
    rintro p ⟨path', hpath', hp⟩
    obtain rfl := List.mem_singleton.1 hpath'
    exact ⟨path', hpath, hp⟩
  cases h with
  | idle hgrown => exact hgrown.mono hpassed fun _ _ => False.elim
  | putting _ _ hgrown =>
    refine hgrown.mono hpassed ?_
    rintro p e ⟨path', hpath', hp⟩
    obtain rfl := List.mem_singleton.1 hpath'
    exact ⟨path', hpath, hp⟩

/-- Only the place of its own document changes by the conversion of a file, as far as files are there. -/
theorem Step.find?_goal (h : j.Step fs directory out path now after) (hbelow : LiesBelow fs directory path)
    (hbelow' : LiesBelow fs directory path') (hne : path ≠ path') :
    after.tree.find? (j.goal fs out path') = now.tree.find? (j.goal fs out path') ∨
      (now.tree.find? (j.goal fs out path') = none ∧
        after.tree.find? (j.goal fs out path') = some .directory) := by
  rcases (h.grown (List.mem_singleton_self path)).find? (j.goal fs out path') with
    hsame | ⟨hnone, hdirectory, -⟩ | ⟨-, -, path'', hpath'', -, -, -, hgoal, -⟩
  · exact .inl hsame
  · exact .inr ⟨hnone, hdirectory⟩
  · obtain rfl := List.mem_singleton.1 hpath''
    exact absurd (goal_injective hbelow hbelow' hgoal.symm) hne

/-- What is there is left alone. -/
theorem Step.find?_of_holds (h : j.Step fs directory out path now after) (hincremental : j.incremental = true)
    (hbelow : LiesBelow fs directory path) (hbelow' : LiesBelow fs directory path') (hhere : now.here = fs.here)
    (hholds : now.holds (outputPath out path' j.packed) = true) :
    after.tree.find? (j.goal fs out path') = now.tree.find? (j.goal fs out path') := by
  obtain ⟨e, he⟩ := Files.exists_of_holds hholds
  rw [Files.aim_eq hhere] at he
  change now.tree.find? (j.goal fs out path') = some e at he
  rw [he]
  by_cases hpath : path = path'
  · subst hpath
    cases h with
    | idle hgrown => exact hgrown.find?_of_some he fun _ => id
    | putting hmissing _ _ =>
      rw [hmissing hincremental] at hholds
      cases hholds
  · rcases h.find?_goal hbelow hbelow' hpath with hsame | ⟨hnone, -⟩
    · rw [hsame, he]
    · rw [he] at hnone
      cases hnone

theorem Step.isFound (h : j.Step fs directory out path now after) (hbelow : LiesBelow fs directory path)
    (hbelow' : LiesBelow fs directory path') (hfound : j.IsFound fs out now path') :
    j.IsFound fs out after path' := by
  intro text hfile
  have hgrown := h.grown (List.mem_singleton_self path)
  have hbefore : after.tree.find? (j.goal fs out path') = now.tree.find? (j.goal fs out path') →
      after.holds (outputPath out path' j.packed) = true := fun hsame =>
    hgrown.holds (hfound text (hsame ▸ hfile))
  by_cases hpath : path = path'
  · subst hpath
    cases h with
    | putting _ hholds _ => exact hholds
    | idle hidle =>
      rcases hidle.find? (j.goal fs out path) with hsame | ⟨-, hdirectory, -⟩ | ⟨-, -, hput⟩
      · exact hbefore hsame
      · rw [hfile] at hdirectory
        cases hdirectory
      · exact hput.elim
  · rcases h.find?_goal hbelow hbelow' hpath with hsame | ⟨-, hdirectory⟩
    · exact hbefore hsame
    · rw [hfile] at hdirectory
      cases hdirectory

theorem Goes.grown (h : j.Goes fs directory out paths now after) :
    Files.Grown (j.IsPassed fs directory out paths) (j.IsDocument fs directory out paths) now after := by
  induction h with
  | refl => exact .refl _ _ now
  | tail _ hstep ih =>
    obtain ⟨path, hpath, hstep⟩ := hstep
    exact ih.trans (hstep.grown hpath)

section
variable (hbelow : ∀ path ∈ paths, LiesBelow fs directory path) (hbelow' : LiesBelow fs directory path')
include hbelow hbelow'

theorem Goes.find?_of_holds (h : j.Goes fs directory out paths now after) (hincremental : j.incremental = true)
    (hhere : now.here = fs.here) (hholds : now.holds (outputPath out path' j.packed) = true) :
    after.tree.find? (j.goal fs out path') = now.tree.find? (j.goal fs out path') := by
  induction h with
  | refl => rfl
  | tail hbefore hstep ih =>
    obtain ⟨path, hpath, hstep⟩ := hstep
    have hgrown := Goes.grown hbefore
    rw [← ih]
    exact hstep.find?_of_holds hincremental (hbelow path hpath) hbelow' (hgrown.here.trans hhere)
      (hgrown.holds hholds)

theorem Goes.isFound (h : j.Goes fs directory out paths now after) (hfound : j.IsFound fs out now path') :
    j.IsFound fs out after path' := by
  induction h with
  | refl => exact hfound
  | tail _ hstep ih =>
    obtain ⟨path, hpath, hstep⟩ := hstep
    exact hstep.isFound (hbelow path hpath) hbelow' ih

end

theorem IsSettled.of_grown (h : j.IsSettled fs directory out now path)
    (hbelow : ∀ path ∈ paths, LiesBelow fs directory path) (hpath : path ∈ paths)
    (hgrown : Files.Grown (j.IsPassed fs directory out paths) (j.IsDocument fs directory out paths) now after) :
    j.IsSettled fs directory out after path := by
  rcases h with ⟨hincremental, hfind⟩ | ⟨text, houtcome, hfind⟩
  · exact .inl ⟨hincremental, hgrown.exists_entry hfind⟩
  · exact .inr ⟨text, houtcome, find?_goal_of_grown hbelow hgrown hpath houtcome hfind⟩

/-- One file after the other is converted as long as no fault ends the program, be it one of telling of a file before
or after its conversion. -/
theorem convertAll_cons {tell : Teller} (htell : ∀ c t r, (tell c t r).2.files = c.files) (j : Job) (c : Console)
    (failed : Nat) (t : Task) (ts : List Task) :
    (∃ c' f, j.convertAll tell c failed (t :: ts) = ⟨c', .error f⟩ ∧
      (c'.files = c.files ∨ c'.files = (j.convert (c.tell t.heading).2 t.source t.path).2.files)) ∨
    ∃ c' failed', j.convertAll tell c failed (t :: ts) = j.convertAll tell c' failed' ts ∧
      c'.files = (j.convert (c.tell t.heading).2 t.source t.path).2.files ∧
      (failed' = 0 → failed = 0 ∧
        ∃ s, (j.convert (c.tell t.heading).2 t.source t.path).1 = .ok s ∧ s.failures = []) := by
  rw [convertAll]
  cases hheading : (c.tell t.heading).1 with
  | error f => exact .inl ⟨_, f, Progress.after_of_error hheading, .inl (Console.files_tell c t.heading)⟩
  | ok =>
    rw [Progress.after_of_ok hheading]
    generalize j.convert (c.tell t.heading).2 t.source t.path = converted
    obtain ⟨result, c'⟩ := converted
    dsimp only
    cases htally : tally failed result with
    | error f => exact .inl ⟨c', f, rfl, .inr rfl⟩
    | ok failed' =>
      dsimp only
      cases hline : (tell c' t result).1 with
      | error f => exact .inl ⟨_, f, Progress.after_of_error hline, .inr (htell ..)⟩
      | ok => exact .inr ⟨_, failed', Progress.after_of_ok hline, htell .., clean_of_tally htally⟩

section
variable (hs : fs.Sound) (hdir : fs.isDirectory directory = true) (hout : j.out = .given out)
  (hspares : Spares put (fs.aim directory))
include hs hdir hout hspares

theorem convert_step {c : Console} (hgrown : Files.Grown made put fs c.files)
    (hbelow : LiesBelow fs directory path) :
    j.Step fs directory out path c.files (j.convert c (Path.join directory path) path).2.files ∧
      ∀ s, (j.convert c (Path.join directory path) path).1 = .ok s → s.failures = [] →
        j.IsSettled fs directory out (j.convert c (Path.join directory path) path).2.files path := by
  rcases convert_spec hs hdir hout hgrown hspares hbelow with
    ⟨hincremental, hholds, hconvert⟩ | ⟨f, hf, hconvert⟩ | ⟨text, failures, houtcome, hmissing, hconvert⟩
  · rw [hconvert]
    have hfind := Files.exists_of_holds hholds
    rw [Files.aim_eq hgrown.here] at hfind
    exact ⟨.idle (.refl _ _ _), fun _ _ _ => .inl ⟨hincremental, hfind⟩⟩
  · rw [hconvert]
    exact ⟨.idle (.refl _ _ _), fun s hok => by cases hok⟩
  · rw [hconvert]
    dsimp only
    rcases grown_of_session out (hgrown.sound hs) hgrown.here houtcome (List.mem_singleton_self path) with
      ⟨f, hresult, hidle⟩ | ⟨⟨ns, hresult⟩, hfound, hfind, hput⟩
    · refine ⟨.idle hidle, fun s hok => ?_⟩
      rw [hresult] at hok
      cases hok
    · refine ⟨.putting hmissing hfound hput, fun s hok hnone => ?_⟩
      rw [hresult] at hok
      obtain rfl := Except.ok.inj hok
      obtain rfl : failures = [] := hnone
      exact .inr ⟨text, houtcome, hfind⟩

/-- Whatever becomes of a run over files, it goes step by step; and nothing failed about any of them if the run
counts none. -/
theorem convertAll_goes (hbelow : ∀ path ∈ paths, LiesBelow fs directory path)
    (hmade : ∀ p, j.IsPassed fs directory out paths p → made p)
    (hput : ∀ p e, j.IsDocument fs directory out paths p e → put p e) {ts : List Task}
    (hts : ∀ t ∈ ts, t.source = Path.join directory t.path ∧ t.path ∈ paths) {c : Console} (failed : Nat)
    (hgrown : Files.Grown made put fs c.files) :
    j.Goes fs directory out paths c.files (j.convertAll .inLine c failed ts).console.files ∧
      ((j.convertAll .inLine c failed ts).failed = .ok 0 → failed = 0 ∧ ∀ t ∈ ts,
        j.IsSettled fs directory out (j.convertAll .inLine c failed ts).console.files t.path) := by
  induction ts generalizing c failed with
  | nil => exact ⟨.refl, fun h => ⟨Except.ok.inj h, by simp⟩⟩
  | cons t ts ih =>
    obtain ⟨⟨hsource, hpath⟩, hts⟩ := List.forall_mem_cons.1 hts
    obtain ⟨hstep, hsettled⟩ := convert_step hs hdir hout hspares (c := (c.tell t.heading).2)
      (by rwa [Console.files_tell]) (hbelow _ hpath)
    rw [Console.files_tell, ← hsource] at hstep
    rw [← hsource] at hsettled
    rcases convertAll_cons Teller.files_inLine j c failed t ts with
      ⟨c', f, hrun, hfiles⟩ | ⟨c', failed', hrun, hfiles, hzero⟩
    · rw [hrun]
      refine ⟨?_, fun h => by cases h⟩
      -- The run ends before the file is converted, or when it has been.
      rcases hfiles with hfiles | hfiles
      · show j.Goes fs directory out paths c.files c'.files
        rw [hfiles]
        exact .refl
      · rw [← hfiles] at hstep
        exact .single ⟨t.path, hpath, hstep⟩
    · rw [← hfiles] at hstep hsettled
      obtain ⟨hrest, hnone⟩ := ih hts failed' (hgrown.trans ((hstep.grown hpath).mono hmade hput))
      rw [hrun]
      refine ⟨.head ⟨t.path, hpath, hstep⟩ hrest, fun h => ?_⟩
      obtain ⟨hfailed', hall⟩ := hnone h
      obtain ⟨hfailed, s, hs, hclean⟩ := hzero hfailed'
      exact ⟨hfailed, List.forall_mem_cons.2
        ⟨(hsettled s hs hclean).of_grown hbelow hpath (Goes.grown hrest), hall⟩⟩

end

end

end Job

end CallTrace
