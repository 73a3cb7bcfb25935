import CallTrace.Proofs.Program.Job

namespace CallTrace
open Attempt Fixture

namespace Job

section
variable [Limits] (j : Job) (fs : Files) (directory out : Text)

/-- What the conversion of a file below a directory comes to, the files being as they were at first. -/
def outcome (path : Text) : Except Fault (Text × List Failure) := (j.document fs (Path.join directory path)).result

def goal (path : Text) : Place := fs.aim (outputPath out path j.packed)

def IsDocument (paths : List Text) (p : Place) (e : FileEntry) : Prop :=
  ∃ path ∈ paths, ∃ text failures, j.outcome fs directory path = .ok (text, failures) ∧
    p = j.goal fs out path ∧ e = .file text j.packed

def IsPassed (paths : List Text) (p : Place) : Prop :=
  ∃ path ∈ paths, (∃ made, j.outcome fs directory path = .ok made) ∧ fs.OnWay (outputPath out path j.packed) p

section
variable {j : Job} {fs : Files} {directory out : Text} {paths : List Text} {path path' : Text}

omit [Limits] in
theorem goal_injective (h : LiesBelow fs directory path) (h' : LiesBelow fs directory path')
    (he : j.goal fs out path = j.goal fs out path') : path = path' := by
  obtain ⟨ns, -, -, hdown, rfl, -⟩ := h
  obtain ⟨ns', -, -, hdown', rfl, -⟩ := h'
  rw [goal, goal, fs.aim_outputPath out j.packed hdown, fs.aim_outputPath out j.packed hdown'] at he
  rw [outputNames_injective j.packed hdown.ne_nil hdown'.ne_nil (List.append_cancel_left he)]

omit [Limits] in
/-- If neither of two directories lies in the other, no document for a file in the one goes into it. -/
theorem not_prefix_goal_of_apart (hdirectory : ¬ fs.aim directory <+: fs.aim out)
    (hout : ¬ fs.aim out <+: fs.aim directory) (h : LiesBelow fs directory path) :
    ¬ fs.aim directory <+: j.goal fs out path := by
  obtain ⟨ns, -, -, hdown, rfl, -⟩ := h
  rw [goal, fs.aim_outputPath out j.packed hdown]
  intro hprefix
  rcases List.prefix_or_prefix_of_prefix hprefix (List.prefix_append (fs.aim out) _) with h | h
  · exact hdirectory h
  · exact hout h

/-- Whatever became of other files, a file is converted as it would have been at first. -/
theorem convert_spec {made : Place → Prop} {put : Place → FileEntry → Prop} (hs : fs.Sound)
    (hdir : fs.isDirectory directory = true) (hout : j.out = .given out) {c : Console}
    (hgrown : Files.Grown made put fs c.files) (hspares : Spares put (fs.aim directory))
    (hbelow : LiesBelow fs directory path) :
    (j.incremental = true ∧ c.files.holds (outputPath out path j.packed) = true ∧
      j.convert c (Path.join directory path) path = (.ok .skipped, c)) ∨
    (∃ f, j.outcome fs directory path = .error f ∧
      j.convert c (Path.join directory path) path =
        (.error f, c.absorb (j.document fs (Path.join directory path)))) ∨
    ∃ text failures, j.outcome fs directory path = .ok (text, failures) ∧
      (j.incremental = true → c.files.holds (outputPath out path j.packed) = false) ∧
      j.convert c (Path.join directory path) path =
        (((j.outputFor out path).session c.files [text]).result.map fun _ => .converted text.length failures,
          { c.absorb (j.document fs (Path.join directory path)) with
            files := ((j.outputFor out path).session c.files [text]).files }) := by
  have hdocument : j.document c.files (Path.join directory path) = j.document fs (Path.join directory path) :=
    document_congr (contents_of_grown hgrown hs hdir hspares hbelow)
  have hcases := convert_cases hout c (Path.join directory path) path
  rwa [hdocument] at hcases

/-- The document for a file is put in its place and found there, or nothing is put anywhere. -/
theorem grown_of_session (out : Text) {now : Files} (hs : now.Sound) (hhere : now.here = fs.here) {text : Text}
    {failures : List Failure} (houtcome : j.outcome fs directory path = .ok (text, failures))
    (hpath : path ∈ paths) :
    (∃ f, ((j.outputFor out path).session now [text]).result = .error f ∧
      Files.Grown (j.IsPassed fs directory out paths) (fun _ _ => False) now
        ((j.outputFor out path).session now [text]).files) ∨
    (∃ ns, ((j.outputFor out path).session now [text]).result = .ok ns) ∧
      ((j.outputFor out path).session now [text]).files.holds (outputPath out path j.packed) = true ∧
      ((j.outputFor out path).session now [text]).files.tree.find? (j.goal fs out path) =
        some (.file text j.packed) ∧
      Files.Grown (j.IsPassed fs directory out paths) (j.IsDocument fs directory out paths) now
        ((j.outputFor out path).session now [text]).files := by
  have haim : now.aim (outputPath out path j.packed) = j.goal fs out path := Files.aim_eq hhere _
  have hpassed : ∀ p, now.OnWay (outputPath out path j.packed) p → j.IsPassed fs directory out paths p :=
    fun p hp => ⟨path, hpath, ⟨_, houtcome⟩, Files.onWay_eq hhere _ ▸ hp⟩
  rcases (j.outputFor out path).session_spec hs rfl (utf8?_of_document houtcome) with
    ⟨f, hf, hgrown⟩ | ⟨hresult, hloc, hfind, hgrown⟩
  · exact .inl ⟨f, hf, hgrown.mono hpassed fun _ _ => id⟩
  · have hholds := Files.holds_of_locate hloc hfind
    change (_ : Files).tree.find? (now.aim (outputPath out path j.packed)) = _ at hfind
    rw [haim] at hfind
    refine .inr ⟨⟨_, hresult⟩, hholds, hfind, hgrown.mono hpassed fun p e he => ?_⟩
    exact ⟨path, hpath, text, failures, houtcome, he.1.trans haim, he.2⟩

/-- A document stays what it is while other ones are put where they belong. -/
theorem find?_goal_of_grown {now after : Files} (hbelow : ∀ path ∈ paths, LiesBelow fs directory path)
    (hgrown : Files.Grown (j.IsPassed fs directory out paths) (j.IsDocument fs directory out paths) now after)
    (hpath : path ∈ paths) {text : Text} {failures : List Failure}
    (houtcome : j.outcome fs directory path = .ok (text, failures))
    (hfind : now.tree.find? (j.goal fs out path) = some (.file text j.packed)) :
    after.tree.find? (j.goal fs out path) = some (.file text j.packed) := by
  rcases hgrown.find? (j.goal fs out path) with hsame | ⟨hnone, -⟩ | ⟨e, he, hdocument⟩
  · rw [hsame, hfind]
  · rw [hfind] at hnone
    cases hnone
  · obtain ⟨path', hpath', text', failures', houtcome', hgoal, rfl⟩ := hdocument
    obtain rfl := goal_injective (hbelow path hpath) (hbelow path' hpath') hgoal
    rw [houtcome] at houtcome'
    obtain ⟨rfl, -⟩ := Prod.mk.inj (Except.ok.inj houtcome')
    exact he

/-- The files that are attended to until something cannot be told of one, which is one of them if its heading can. -/
def reached (shows : Charset) (before : List Task) (t : Task) : List Task :=
  if shows.Shows t.heading then before ++ [t] else before

section
variable (hs : fs.Sound) (hbelow : ∀ path ∈ paths, LiesBelow fs directory path)
include hs hbelow

end

section
variable (hs : fs.Sound) (hdir : fs.isDirectory directory = true) (hout : j.out = .given out)
  (hincremental : j.incremental = false) (hbelow : ∀ path ∈ paths, LiesBelow fs directory path)
  (hspares : Spares (j.IsDocument fs directory out paths) (fs.aim directory))
  (htold : ∀ path ∈ paths, ∀ f, j.outcome fs directory path = .error f → isTold f = true)
include hs hdir hout hincremental hbelow hspares htold

end

omit [Limits] in
theorem map_path_directoryTasks (directory : Text) (paths : List Text) :
    (directoryTasks directory paths).map (·.path) = paths := by
  rw [directoryTasks, List.map_map]
  exact List.zipIdx_map_fst 0 paths

omit [Limits] in
theorem exists_mem_directoryTasks (directory : Text) (h : path ∈ paths) :
    ∃ t ∈ directoryTasks directory paths, t.path = path :=
  List.mem_map.1 ((map_path_directoryTasks directory paths).symm ▸ h)

omit [Limits] in
theorem mem_directoryTasks {t : Task} (h : t ∈ directoryTasks directory paths) :
    t.source = Path.join directory t.path ∧ t.path ∈ paths := by
  obtain ⟨⟨path, n⟩, hpath, rfl⟩ := List.mem_map.1 h
  exact ⟨rfl, List.fst_mem_of_mem_zipIdx hpath⟩

end

variable {j directory out}

omit [Limits] in
theorem findTasks_given {fs : Files} {includes excludes : FlagValue Text} {included excluded : GlobSet}
    (hincludes : (includes.filled >>= fun path => loadGlobs fs path .defaultIncludes) = .ok included)
    (hexcludes : (excludes.filled >>= fun path => loadGlobs fs path .defaultExcludes) = .ok excluded) :
    findTasks fs (.given directory) includes excludes =
      (Fixture.find fs directory included excluded).map (directoryTasks directory) := by
  obtain ⟨path, hpath, hincludes⟩ := bind_eq_ok.1 hincludes
  obtain ⟨path', hpath', hexcludes⟩ := bind_eq_ok.1 hexcludes
  have hgiven : (FlagValue.given directory).filled = .ok (some directory) := rfl
  unfold findTasks
  rw [hpath, ok_bind, hincludes, ok_bind, hpath', ok_bind, hexcludes, ok_bind, hgiven, ok_bind]
  dsimp only
  cases Fixture.find fs directory included excluded <;> rfl

theorem convertDirectory_eq {c : Console} {includes excludes : FlagValue Text} {included excluded : GlobSet}
    {paths : List Text}
    (hincludes : (includes.filled >>= fun path => loadGlobs c.files path .defaultIncludes) = .ok included)
    (hexcludes : (excludes.filled >>= fun path => loadGlobs c.files path .defaultExcludes) = .ok excluded)
    (hfind : Fixture.find c.files directory included excluded = .ok paths) :
    j.convertDirectory c (.given directory) includes excludes =
      j.convertAll .inLine c 0 (directoryTasks directory paths) := by
  unfold convertDirectory
  rw [findTasks_given hincludes hexcludes, hfind]
  rfl

end

def packingJob : Job where
  batch := {
    executor := fun _ _ _ _ => .ofExcept (.error .noRecords)
    filter := StateTest.everyInstance
    abbreviate := true
    workers := 1
    workers_pos := Nat.one_pos }
  out := .given "docs/new"
  packed := true
  pretty := false
  incremental := false

/-- What is wrong with a test whose name is half a pair cannot be told, and the file after it is not attended to. -/
example : letI : Limits := .unbounded
    let named : FileTree := FileTree.empty.putFile ["fix", "a.json"] "\x7b\"\\ud800\": \x7b\x7d\x7d" false
    let c : Console := { files := ⟨named.putFile ["fix", "b.json"] "\x7b\x7d" false, []⟩ }
    (packingJob.convertAll .inLine c 0 (directoryTasks "fix" ["a.json", "b.json"])).failed = .error .unencodable := rfl

end Job

end CallTrace
