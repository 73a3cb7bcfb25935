import CallTrace.Proofs.Batch.Completeness
import CallTrace.Proofs.Json.Reader
import CallTrace.Proofs.Program.Steps

namespace CallTrace
open Attempt Fixture

theorem Fixture.isProper_of_load [Limits] {fs : Files} {path : Text} {fixture : Json}
    (h : Fixture.load fs path = .ok fixture) : fixture.isProper = true := by
  obtain ⟨text, -, h⟩ := bind_eq_ok.1 h
  split at h
  · rename_i hread
    obtain rfl := Except.ok.inj h
    exact Json.isProper_of_read hread
  · cases h
  · cases h

/-- What may differ between runs with the same arguments: what the tool does, and which instance is done first. -/
structure Turn where
  executor : Executor
  chance : Pool.Chance := fun _ => 0

namespace Job

def on (j : Job) (r : Turn) : Job :=
  { j with batch := { j.batch with executor := r.executor, chance := r.chance } }

section
variable [Limits] (j : Job) (fs : Files) (directory out : Text)

def IsDocumentOf (rs : List Turn) (paths : List Text) (p : Place) (e : FileEntry) : Prop :=
  ∃ r ∈ rs, (j.on r).IsDocument fs directory out paths p e

def run (c : Console) (includes excludes : FlagValue Text) (now : Files) (r : Turn) : Progress :=
  (j.on r).convertDirectory { c with files := now } (.given directory) includes excludes

def runs (c : Console) (includes excludes : FlagValue Text) (rs : List Turn) : Files :=
  rs.foldl (fun now r => (j.run directory c includes excludes now r).console.files) c.files

/-- The document for a file came with a run, there was none before, and it is the same ever since. -/
def CameWith (c : Console) (includes excludes : FlagValue Text) (rs : List Turn) (path : Text) (r : Turn) : Prop :=
  ∃ before after, rs = before ++ r :: after ∧
    (j.runs directory c includes excludes before).tree.find? (j.goal c.files out path) = none ∧
    ∀ more, more <+: after → (j.runs directory c includes excludes (before ++ r :: more)).tree.find?
      (j.goal c.files out path) = (j.runs directory c includes excludes rs).tree.find? (j.goal c.files out path)

/-- What runs over a directory begin with: the files that patterns select, and nothing yet in the places of their
documents, which are elsewhere. -/
structure Begins (c : Console) (includes excludes : FlagValue Text) (paths : List Text) : Prop where
  sound : c.files.Sound
  isDirectory : c.files.isDirectory directory = true
  given : j.out = .given out
  found : ∃ included excluded,
    (includes.filled >>= fun path => loadGlobs c.files path .defaultIncludes) = .ok included ∧
    (excludes.filled >>= fun path => loadGlobs c.files path .defaultExcludes) = .ok excluded ∧
    Fixture.find c.files directory included excluded = .ok paths
  below : ∀ path ∈ paths, LiesBelow c.files directory path
  missing : ∀ path ∈ paths, c.files.tree.find? (j.goal c.files out path) = none
  apart : ∀ path ∈ paths, ¬ c.files.aim directory <+: j.goal c.files out path

structure Stands (now : Files) (path : Text) (r : Turn) (tests : List StateTest) (made : Conversion) : Prop where
  converted : ∃ fixture, Fixture.load fs (Path.join directory path) = .ok fixture ∧
    StateTest.allOfJson fixture = .ok tests ∧ ((j.on r).batch.convertFixture fixture).result = .ok made
  find? : now.tree.find? (j.goal fs out path) = some (.file (made.document.dump j.pretty) j.packed)

end

section
variable [Limits] {j : Job} {fs : Files} {directory out : Text} {path : Text}

theorem exists_stands {now : Files} {r : Turn} {text : Text} {failures : List Failure}
    (houtcome : (j.on r).outcome fs directory path = .ok (text, failures))
    (hfind : now.tree.find? (j.goal fs out path) = some (.file text j.packed)) :
    ∃ tests made, j.Stands fs directory out now path r tests made ∧ made.failures = failures ∧
      (ListsAll tests j.batch.filter made.document ↔ made.failures = []) := by
  obtain ⟨made, hconversion, rfl, rfl⟩ := document_eq_ok houtcome
  obtain ⟨fixture, hload, hmade⟩ := bind_eq_ok.1 hconversion
  obtain ⟨tests, -, htests, -⟩ := Batch.exists_parts_of_convertFixture hmade
  exact ⟨tests, made, ⟨⟨fixture, hload, htests, hmade⟩, hfind⟩, rfl,
    Batch.listsAll_iff (b := (j.on r).batch) (isProper_of_load hload) htests hmade⟩

end

section
variable {j : Job} {c : Console} {directory out path : Text} {paths : List Text}
  {includes excludes : FlagValue Text} {included excluded : GlobSet} {rs : List Turn}

theorem find?_goal_of_empty (hempty : ∀ ns, ns ≠ [] → c.files.tree.find? (c.files.aim out ++ ns) = none)
    (h : LiesBelow c.files directory path) : c.files.tree.find? (j.goal c.files out path) = none := by
  obtain ⟨ns, -, -, hdown, rfl, -⟩ := h
  rw [goal, c.files.aim_outputPath out j.packed hdown]
  exact hempty _ (leadDown_outputNames j.packed hdown).ne_nil

/-- An empty directory that does not lie in another one has nothing to do with it. -/
theorem not_prefix_of_empty (hdir : c.files.isDirectory directory = true)
    (hempty : ∀ ns, ns ≠ [] → c.files.tree.find? (c.files.aim out ++ ns) = none)
    (hapart : ¬ c.files.aim directory <+: c.files.aim out) : ¬ c.files.aim out <+: c.files.aim directory := by
  rintro ⟨ns, hns⟩
  have hne : ns ≠ [] := by
    rintro rfl
    rw [List.append_nil] at hns
    exact hapart (hns ▸ List.prefix_refl _)
  have hnone := hempty ns hne
  rw [hns, (Files.isDirectory_iff.1 hdir).2] at hnone
  cases hnone

/-- Where nothing is below a directory that is not in the one with the files, runs can begin. -/
theorem begins_of_empty (hs : c.files.Sound) (hdir : c.files.isDirectory directory = true)
    (hout : j.out = .given out) (hempty : ∀ ns, ns ≠ [] → c.files.tree.find? (c.files.aim out ++ ns) = none)
    (hapart : ¬ c.files.aim directory <+: c.files.aim out)
    (hincludes : (includes.filled >>= fun path => loadGlobs c.files path .defaultIncludes) = .ok included)
    (hexcludes : (excludes.filled >>= fun path => loadGlobs c.files path .defaultExcludes) = .ok excluded) :
    ∃ paths, j.Begins directory out c includes excludes paths ∧
      ∀ path, path ∈ paths ↔ LiesBelow c.files directory path ∧ isSelected included excluded path = true := by
  obtain ⟨paths, hpaths, -, hmem⟩ := find_spec hs hdir included excluded
  have hbelow : ∀ path ∈ paths, LiesBelow c.files directory path := fun path hpath => ((hmem path).1 hpath).1
  have hout' := not_prefix_of_empty hdir hempty hapart
  exact ⟨paths, ⟨hs, hdir, hout, ⟨included, excluded, hincludes, hexcludes, hpaths⟩, hbelow,
    fun path hpath => find?_goal_of_empty hempty (hbelow path hpath),
    fun path hpath => not_prefix_goal_of_apart hapart hout' (hbelow path hpath)⟩, hmem⟩

variable [Limits]

theorem runs_append_singleton (rs : List Turn) (r : Turn) : j.runs directory c includes excludes (rs ++ [r]) =
    (j.run directory c includes excludes (j.runs directory c includes excludes rs) r).console.files := by
  rw [runs, List.foldl_append]
  rfl

theorem isDocumentOf_append {p : Place} {e : FileEntry} (h : j.IsDocumentOf c.files directory out rs paths p e)
    (rs' : List Turn) : j.IsDocumentOf c.files directory out (rs ++ rs') paths p e := by
  obtain ⟨r, hr, he⟩ := h
  exact ⟨r, List.mem_append_left rs' hr, he⟩

theorem isDocumentOf_last (rs : List Turn) {r : Turn} {p : Place} {e : FileEntry}
    (h : (j.on r).IsDocument c.files directory out paths p e) :
    j.IsDocumentOf c.files directory out (rs ++ [r]) paths p e :=
  ⟨r, List.mem_append_right rs (List.mem_singleton_self r), h⟩

theorem eq_goal_of_isDocumentOf {p : Place} {e : FileEntry}
    (h : j.IsDocumentOf c.files directory out rs paths p e) : ∃ path ∈ paths, p = j.goal c.files out path := by
  obtain ⟨r, -, path, hpath, -, -, -, rfl, -⟩ := h
  exact ⟨path, hpath, rfl⟩

section
variable (h : j.Begins directory out c includes excludes paths)
include h

theorem Begins.spares (rs : List Turn) :
    Spares (j.IsDocumentOf c.files directory out rs paths) (c.files.aim directory) := by
  intro p e he
  obtain ⟨path, hpath, rfl⟩ := eq_goal_of_isDocumentOf he
  exact h.apart path hpath

/-- The patterns stay the same: nothing takes the place of a file that was there at first. -/
theorem Begins.globs {now : Files}
    (hgrown : Files.Grown (fun _ => True) (j.IsDocumentOf c.files directory out rs paths) c.files now)
    {flag : FlagValue Text} {default globs : GlobSet}
    (hflag : (flag.filled >>= fun path => loadGlobs c.files path default) = .ok globs) :
    (flag.filled >>= fun path => loadGlobs now path default) = .ok globs := by
  obtain ⟨source, hsource, hload⟩ := bind_eq_ok.1 hflag
  rw [hsource, ok_bind]
  refine loadGlobs_of_grown hgrown (fun p e he => ?_) hload
  obtain ⟨path, hpath, rfl⟩ := eq_goal_of_isDocumentOf he
  exact h.missing path hpath

/-- Every run is over the same files. -/
theorem run_eq_convertAll {now : Files}
    (hgrown : Files.Grown (fun _ => True) (j.IsDocumentOf c.files directory out rs paths) c.files now) (r : Turn) :
    j.run directory c includes excludes now r =
      (j.on r).convertAll .inLine { c with files := now } 0 (directoryTasks directory paths) := by
  obtain ⟨included, excluded, hincludes, hexcludes, hpaths⟩ := h.found
  have hfind := find_of_grown hgrown h.sound h.isDirectory (h.spares rs) included excluded
  exact convertDirectory_eq (h.globs hgrown hincludes) (h.globs hgrown hexcludes) (hfind.trans hpaths)

theorem run_goes {now : Files}
    (hgrown : Files.Grown (fun _ => True) (j.IsDocumentOf c.files directory out rs paths) c.files now) (r : Turn) :
    (j.on r).Goes c.files directory out paths now (j.run directory c includes excludes now r).console.files ∧
      ((j.run directory c includes excludes now r).status = .ok 0 → ∀ path ∈ paths, (j.on r).IsSettled c.files
        directory out (j.run directory c includes excludes now r).console.files path) := by
  rw [run_eq_convertAll h hgrown r]
  have hmore := hgrown.mono (fun _ => id) fun p e he => isDocumentOf_append he [r]
  obtain ⟨hgoes, hsettled⟩ := convertAll_goes (j := j.on r) h.sound h.isDirectory h.given (h.spares (rs ++ [r]))
    h.below (fun _ _ => trivial) (fun p e => isDocumentOf_last rs) (fun t ht => mem_directoryTasks ht)
    (c := { c with files := now }) 0 hmore
  refine ⟨hgoes, fun hzero path hpath => ?_⟩
  obtain ⟨t, ht, rfl⟩ := exists_mem_directoryTasks directory hpath
  exact (hsettled (Progress.status_eq_zero_iff.1 hzero)).2 t ht

theorem runs_grown (rs : List Turn) :
    Files.Grown (fun _ => True) (j.IsDocumentOf c.files directory out rs paths) c.files
      (j.runs directory c includes excludes rs) := by
  induction rs using List.reverseRecOn with
  | nil => exact .refl _ _ _
  | append_singleton rs r ih =>
    rw [runs_append_singleton]
    obtain ⟨hgoes, -⟩ := run_goes h ih r
    have hmore := ih.mono (fun _ => id) fun p e he => isDocumentOf_append he [r]
    exact hmore.trans (hgoes.grown.mono (fun _ _ => trivial) fun p e => isDocumentOf_last rs)

theorem runs_isFound (rs : List Turn) (hpath : path ∈ paths) :
    j.IsFound c.files out (j.runs directory c includes excludes rs) path := by
  induction rs using List.reverseRecOn with
  | nil =>
    intro text hfile
    change c.files.tree.find? _ = _ at hfile
    rw [h.missing path hpath] at hfile
    cases hfile
  | append_singleton rs r ih =>
    rw [runs_append_singleton]
    obtain ⟨hgoes, -⟩ := run_goes h (runs_grown h rs) r
    exact Goes.isFound (j := j.on r) h.below (h.below path hpath) hgoes ih

/-- What is in the place of a document is missing, a directory, or what one of the runs made. -/
theorem runs_goal_cases (rs : List Turn) (hpath : path ∈ paths) :
    (j.runs directory c includes excludes rs).tree.find? (j.goal c.files out path) = none ∨
    (j.runs directory c includes excludes rs).tree.find? (j.goal c.files out path) = some .directory ∨
    ∃ r ∈ rs, ∃ text failures, (j.on r).outcome c.files directory path = .ok (text, failures) ∧
      (j.runs directory c includes excludes rs).tree.find? (j.goal c.files out path) =
        some (.file text j.packed) := by
  have hgrown := runs_grown h rs
  rcases hgrown.find? (j.goal c.files out path) with
    hsame | ⟨-, hdirectory, -⟩ | ⟨e, he, r, hr, path', hpath', text, failures, houtcome, hgoal, rfl⟩
  · exact .inl (hsame.trans (h.missing path hpath))
  · exact .inr (.inl hdirectory)
  · obtain rfl := goal_injective (h.below path hpath) (h.below path' hpath') hgoal
    exact .inr (.inr ⟨r, hr, text, failures, houtcome, he⟩)

/-- A further run leaves a document alone that is there. -/
theorem runs_keep (hincremental : j.incremental = true) (rs : List Turn) (r : Turn) (hpath : path ∈ paths)
    {text : Text} (hfile : (j.runs directory c includes excludes rs).tree.find? (j.goal c.files out path) =
      some (.file text j.packed)) :
    (j.runs directory c includes excludes (rs ++ [r])).tree.find? (j.goal c.files out path) =
      some (.file text j.packed) := by
  have hgrown := runs_grown h rs
  have hholds := runs_isFound h rs hpath text hfile
  obtain ⟨hgoes, -⟩ := run_goes h hgrown r
  rw [runs_append_singleton]
  refine Eq.trans ?_ hfile
  exact Goes.find?_of_holds (j := j.on r) h.below (h.below path hpath) hgoes hincremental hgrown.here hholds

/-- If documents are left alone where there are some, the first run that puts one decides what it is. -/
theorem exists_cameWith (hincremental : j.incremental = true) (rs : List Turn) (hpath : path ∈ paths) {text : Text}
    (hfile : (j.runs directory c includes excludes rs).tree.find? (j.goal c.files out path) =
      some (.file text j.packed)) :
    ∃ r ∈ rs, (∃ failures, (j.on r).outcome c.files directory path = .ok (text, failures)) ∧
      j.CameWith directory out c includes excludes rs path r := by
  -- From the last run backward: it put the document, or it found the document and left it alone.
  induction rs using List.reverseRecOn generalizing text with
  | nil =>
    change c.files.tree.find? _ = _ at hfile
    rw [h.missing path hpath] at hfile
    cases hfile
  | append_singleton rs r ih =>
    have hgrown := runs_grown h rs
    obtain ⟨hgoes, -⟩ := run_goes h hgrown r
    rcases runs_goal_cases h rs hpath with hnone | hdirectory | ⟨-, -, text', -, -, hbefore⟩
    · -- There was none, so this run has put it.
      rw [runs_append_singleton] at hfile
      rcases hgoes.grown.find? (j.goal c.files out path) with
        hsame | ⟨-, hdirectory, -⟩ | ⟨e, he, path', hpath', text', failures, houtcome, hgoal, rfl⟩
      · rw [hsame, hnone] at hfile
        cases hfile
      · rw [hfile] at hdirectory
        cases hdirectory
      · obtain rfl := goal_injective (h.below path hpath) (h.below path' hpath') hgoal
        rw [hfile] at he
        obtain ⟨rfl, -⟩ := FileEntry.file.inj (Option.some.inj he)
        refine ⟨r, List.mem_append_right rs (List.mem_singleton_self r), ⟨failures, houtcome⟩, rs, [], rfl, hnone,
          fun more hmore => ?_⟩
        rw [List.prefix_nil.1 hmore]
    · rw [runs_append_singleton, hgoes.grown.directory _ hdirectory] at hfile
      cases hfile
    · have hkept := runs_keep h hincremental rs r hpath hbefore
      obtain ⟨r', hr', houtcome, before, after, hrs, hnone, hsince⟩ := ih hbefore
      rw [hkept] at hfile
      obtain ⟨rfl, -⟩ := FileEntry.file.inj (Option.some.inj hfile)
      refine ⟨r', List.mem_append_left [r] hr', houtcome, before, after ++ [r], ?_, hnone, fun more hmore => ?_⟩
      · rw [hrs, List.append_assoc, List.cons_append]
      · rcases List.prefix_concat_iff.1 hmore with rfl | hmore
        · rw [hrs, List.append_assoc, List.cons_append]
        · rw [hsince more hmore, hkept, hbefore]

end

/-- Runs over a directory with the same arguments, there being nothing at first where documents go. Once one of
them ends with status zero, there is a document for every file that the patterns select, unless a directory has
come to stand in its place. It is what one of the runs made of the file, and it is complete exactly if no
instance failed in that run. If documents are left alone where there are some, this is the first run that made
one; if not, it is the last one, and nothing failed. -/
theorem stands_of_status_zero (hs : c.files.Sound) (hdir : c.files.isDirectory directory = true)
    (hout : j.out = .given out) (hempty : ∀ ns, ns ≠ [] → c.files.tree.find? (c.files.aim out ++ ns) = none)
    (hapart : ¬ c.files.aim directory <+: c.files.aim out)
    (hincludes : (includes.filled >>= fun path => loadGlobs c.files path .defaultIncludes) = .ok included)
    (hexcludes : (excludes.filled >>= fun path => loadGlobs c.files path .defaultExcludes) = .ok excluded)
    (rs : List Turn) (r : Turn)
    (hzero : (j.run directory c includes excludes (j.runs directory c includes excludes rs) r).status = .ok 0)
    (hpath : LiesBelow c.files directory path) (hselected : isSelected included excluded path = true) :
    (j.incremental = true ∧ (j.runs directory c includes excludes (rs ++ [r])).tree.find?
      (j.goal c.files out path) = some .directory) ∨
    ∃ r' ∈ rs ++ [r], ∃ tests made,
      j.Stands c.files directory out (j.runs directory c includes excludes (rs ++ [r])) path r' tests made ∧
      (ListsAll tests j.batch.filter made.document ↔ made.failures = []) ∧
      (j.incremental = true → j.CameWith directory out c includes excludes (rs ++ [r]) path r') ∧
      (j.incremental = false → r' = r ∧ made.failures = []) := by
  obtain ⟨paths, h, hmem⟩ := begins_of_empty hs hdir hout hempty hapart hincludes hexcludes
  have hpath := (hmem path).2 ⟨hpath, hselected⟩
  obtain ⟨-, hsettled⟩ := run_goes h (runs_grown h rs) r
  have hsettled := hsettled hzero path hpath
  rw [← runs_append_singleton] at hsettled
  -- A document that is left alone can be that of an earlier run; otherwise the last run puts each one anew.
  cases hincremental : j.incremental with
  | true =>
    have hthere : ∃ e, (j.runs directory c includes excludes (rs ++ [r])).tree.find?
        (j.goal c.files out path) = some e := by
      rcases hsettled with ⟨-, hfind⟩ | ⟨text, -, hfind⟩
      · exact hfind
      · exact ⟨_, hfind⟩
    rcases runs_goal_cases h (rs ++ [r]) hpath with hnone | hdirectory | ⟨-, -, text, -, -, hfile⟩
    · rw [hnone] at hthere
      exact absurd hthere.choose_spec.symm (Option.some_ne_none _)
    · exact .inl ⟨rfl, hdirectory⟩
    · obtain ⟨r', hr', ⟨failures, houtcome⟩, hcame⟩ := exists_cameWith h hincremental (rs ++ [r]) hpath hfile
      obtain ⟨tests, made, hstands, -, hlists⟩ := exists_stands houtcome hfile
      exact .inr ⟨r', hr', tests, made, hstands, hlists, fun _ => hcame, fun h => by cases h⟩
  | false =>
    rcases hsettled with ⟨hskipping, -⟩ | ⟨text, houtcome, hfind⟩
    · exact absurd (hincremental.symm.trans hskipping) Bool.false_ne_true
    · obtain ⟨tests, made, hstands, hnone, hlists⟩ := exists_stands houtcome hfind
      exact .inr ⟨r, List.mem_append_right rs (List.mem_singleton_self r), tests, made, hstands, hlists,
        fun h => (by cases h), fun _ => ⟨rfl, hnone⟩⟩

end

def callFixture : Json :=
  let chosen (data : Int) : Json :=
    .object [("indexes", .object [("data", .int data), ("gas", .int 0), ("value", .int 0)])]
  .object [("call", .object [
    ("pre", .object []),
    ("env", .object [("currentCoinbase", .text "0x01"), ("currentGasLimit", .text "0x10"),
      ("currentNumber", .text "0x02"), ("currentTimestamp", .text "0x03")]),
    ("transaction", .object [("sender", .text "0x0a"), ("secretKey", .text "0x0b"), ("nonce", .text "0x00"),
      ("gasPrice", .text "0x01"), ("gasLimit", .texts ["0x20"]), ("value", .texts ["0x00"]),
      ("data", .texts ["0x", "0x60"])]),
    ("post", .object [("London", .list [chosen 0, chosen 1])])])]

def callDirectory : Console where
  files := ⟨(FileTree.empty.putFile ["fix", "call.json"] (callFixture.dump false) false).put ["traces"] .directory,
    []⟩

def resumingJob : Job where
  batch := {
    executor := fun _ _ _ _ => .ofExcept (.error .noRecords)
    filter := StateTest.everyInstance
    abbreviate := true
    workers := 1
    workers_pos := Nat.one_pos }
  out := .given "traces"
  packed := false
  pretty := false
  incremental := true

def slow : Turn where
  executor _ _ _ tx := .ofExcept
    (if tx.data.isEmpty then .ok (.ofTrace (.ended .return [])) else .error (.process (.timeout (.int 30))))

def prompt : Turn where
  executor _ _ _ _ := .ofExcept (.ok (.ofTrace (.ended .return [])))

theorem missing_callDirectory {ns : List Text} (h : ns ≠ []) :
    callDirectory.files.tree.find? (callDirectory.files.aim "traces" ++ ns) = none := by
  obtain ⟨n, ns, rfl⟩ := List.exists_cons_of_ne_nil h
  rfl

theorem liesBelow_callFixture : LiesBelow callDirectory.files "fix" "call.json" :=
  ⟨["call.json"], callFixture.dump false, false, ⟨List.cons_ne_nil _ _, by decide +kernel⟩, by decide +kernel,
    by decide +kernel⟩

theorem status_slowPrompt : letI : Limits := .unbounded
    (resumingJob.run "fix" callDirectory .absent .absent
      (resumingJob.runs "fix" callDirectory .absent .absent [slow]) prompt).status = .ok 0 := by
  let _ : Limits := .unbounded
  exact eq_ok_of_toOption (by decide +kernel)

/-- The document that a slow run has made is still there after a prompt one, which ends with status zero. -/
theorem stands_of_status_zero_slowPrompt : letI : Limits := .unbounded
    callDirectory.files.Sound ∧
      (resumingJob.run "fix" callDirectory .absent .absent
        (resumingJob.runs "fix" callDirectory .absent .absent [slow]) prompt).status = .ok 0 ∧
      ∃ r ∈ [slow, prompt], ∃ tests made,
        resumingJob.Stands callDirectory.files "fix" "traces"
          (resumingJob.runs "fix" callDirectory .absent .absent [slow, prompt]) "call.json" r tests made ∧
        (ListsAll tests resumingJob.batch.filter made.document ↔ made.failures = []) ∧
        resumingJob.CameWith "fix" "traces" callDirectory .absent .absent [slow, prompt] "call.json" r := by
  let _ : Limits := .unbounded
  have hs : callDirectory.files.Sound := by decide +kernel
  have hincludes : ((FlagValue.absent : FlagValue Text).filled >>= fun path =>
      loadGlobs callDirectory.files path .defaultIncludes) = .ok .defaultIncludes := rfl
  have hexcludes : ((FlagValue.absent : FlagValue Text).filled >>= fun path =>
      loadGlobs callDirectory.files path .defaultExcludes) = .ok .defaultExcludes := rfl
  rcases stands_of_status_zero hs (by decide +kernel) rfl (fun _ => missing_callDirectory) (by decide +kernel)
    hincludes hexcludes [slow] prompt status_slowPrompt liesBelow_callFixture (by decide +kernel) with
    ⟨-, hdirectory⟩ | ⟨r, hr, tests, made, hstands, hlists, hcame, -⟩
  · have hfile : (resumingJob.runs "fix" callDirectory .absent .absent [slow, prompt]).tree.find?
        (resumingJob.goal callDirectory.files "traces" "call.json") ≠ some .directory := by decide +kernel
    exact absurd hdirectory hfile
  · exact ⟨hs, status_slowPrompt, r, hr, tests, made, hstands, hlists, hcame rfl⟩

def listedCount (document : Json) (p : StateTest.Filter) (fork : Text) (t : StateTest) : Option Nat × Nat :=
  ((listedIds document t.name fork).toOption.map List.length, ((t.select p).filter (·.fork = fork)).length)

/-- A status of zero does not tell that nothing is missing: a run that leaves a document alone does not ask whether
it is complete. -/
theorem not_listsAll_slowPrompt : letI : Limits := .unbounded
    callDirectory.files.Sound ∧ callDirectory.files.isDirectory "fix" = true ∧
      (∀ ns, ns ≠ [] → callDirectory.files.tree.find? (callDirectory.files.aim "traces" ++ ns) = none) ∧
      ¬ callDirectory.files.aim "fix" <+: callDirectory.files.aim "traces" ∧
      LiesBelow callDirectory.files "fix" "call.json" ∧
      isSelected .defaultIncludes .defaultExcludes "call.json" = true ∧
      (resumingJob.run "fix" callDirectory .absent .absent
        (resumingJob.runs "fix" callDirectory .absent .absent [slow]) prompt).status = .ok 0 ∧
      ∃ fixture tests document, Fixture.load callDirectory.files "fix/call.json" = .ok fixture ∧
        StateTest.allOfJson fixture = .ok tests ∧
        Fixture.load (resumingJob.runs "fix" callDirectory .absent .absent [slow, prompt]) "traces/call.json" =
          .ok document ∧
        ¬ ListsAll tests resumingJob.batch.filter document := by
  let _ : Limits := .unbounded
  have hcount : (do
      let fixture ← Fixture.load callDirectory.files "fix/call.json"
      let tests ← StateTest.allOfJson fixture
      let document ← Fixture.load (resumingJob.runs "fix" callDirectory .absent .absent [slow, prompt])
        "traces/call.json"
      return tests.map (listedCount document resumingJob.batch.filter "London")) = .ok [(some 1, 2)] :=
    eq_ok_of_toOption (by decide +kernel)
  obtain ⟨fixture, hfixture, hcount⟩ := bind_eq_ok.1 hcount
  obtain ⟨tests, htests, hcount⟩ := bind_eq_ok.1 hcount
  obtain ⟨document, hdocument, hcount⟩ := bind_eq_ok.1 hcount
  refine ⟨by decide +kernel, by decide +kernel, fun _ => missing_callDirectory, by decide +kernel,
    liesBelow_callFixture, by decide +kernel, status_slowPrompt, fixture, tests, document, hfixture, htests,
    hdocument, fun hall => ?_⟩
  obtain ⟨t, rfl, ht⟩ := List.map_eq_singleton_iff.1 (Except.ok.inj hcount)
  -- One id is listed where two instances are asked for.
  obtain ⟨hlisted, hselected⟩ := Prod.mk.inj ht
  rw [hall t (List.mem_singleton_self t) "London"] at hlisted
  have hone := Option.some.inj hlisted
  rw [List.length_map, hselected] at hone
  cases hone

end Job

end CallTrace
