import CallTrace.Proofs.Output.Descent
import CallTrace.Proofs.Program.Incremental

namespace CallTrace
open Attempt

section
variable {fs : Files} {path other : Text}

theorem Files.readPlain_of_contents (h : fs.contents other = fs.contents path) {text : Text}
    (hread : fs.readPlain path = .ok text) : fs.readPlain other = .ok text := by
  obtain ⟨⟨held, packed⟩, hheld, hread⟩ := bind_eq_ok.1 hread
  rw [readPlain, h, hheld, ok_bind]
  cases packed with
  | true => cases hread
  | false => exact hread

/-- What is read in a file depends on what it holds and on how its path ends. Only the complaints name the path. -/
theorem Fixture.load_of_contents [Limits] (h : fs.contents other = fs.contents path)
    (hname : isPackedName other = isPackedName path) {fixture : Json} (hload : load fs path = .ok fixture) :
    load fs other = .ok fixture := by
  obtain ⟨text, htext, hread⟩ := bind_eq_ok.1 hload
  have hother : fileText fs other = .ok text := by
    unfold fileText at htext ⊢
    rw [hname]
    split at htext
    · rename_i hpacked
      rw [if_pos hpacked, Files.readPacked, h]
      exact htext
    · rename_i hplain
      rw [if_neg hplain]
      split at htext
      · rename_i hheld
        rw [Files.readPlain_of_contents h hheld]
        exact htext
      · cases htext
      · cases htext
  rw [load, hother, ok_bind]
  split at hread
  · exact hread
  · cases hread
  · cases hread

end

namespace Job

section
variable (j : Job) (fs : Files) (out : Text)

def output (file : Text) : Text := outputPath out (fileTask file).path j.packed

def site (file : Text) : Place := fs.aim (j.output out file)

/-- The file that decides what lies at a place: the last one whose document goes there, or the first one if
documents are left alone. -/
def decider (files : List Text) (p : Place) : Option Text :=
  (if j.incremental then files else files.reverse).find? fun file => j.site fs out file = p

def IsOnWay (files : List Text) (p : Place) : Prop := ∃ file ∈ files, fs.OnWay (j.output out file) p

/-- What single files are before they are converted: they are there, they lead to places below the directory that
documents go to, and nothing lies at these places yet. -/
structure Awaits (files : List Text) : Prop where
  sound : fs.Sound
  given : j.out = .given out
  isFile : ∀ file ∈ files, ∃ text packed, fs.find? file = some (.file text packed)
  descends : ∀ file ∈ files, Path.Descends (fileTask file).path
  missing : ∀ file ∈ files, fs.tree.find? (j.site fs out file) = none

variable [Limits]

def Holds (now : Files) (file : Text) (p : Place) : Prop :=
  ∃ text, (j.document fs file).result = .ok (text, []) ∧ now.tree.find? p = some (.file text j.packed)

def IsMade (files : List Text) (p : Place) (e : FileEntry) : Prop :=
  ∃ file ∈ files, ∃ text, (j.document fs file).result = .ok (text, []) ∧ p = j.site fs out file ∧
    e = .file text j.packed

/-- The document of the file that decides lies at a place, or documents are left alone and a directory lies there that
was made on the way to the place of another document. -/
def Decided (files : List Text) (now : Files) (p : Place) : Prop :=
  (j.incremental = true ∧ now.tree.find? p = some .directory ∧
    ∃ other ∈ files, j.site fs out other ≠ p ∧ fs.OnWay (j.output out other) p) ∨
  ∃ file, j.decider fs out files p = some file ∧ j.Holds fs now file p

structure Attended (files : List Text) (now : Files) : Prop where
  grown : Files.Grown (j.IsOnWay fs out files) (j.IsMade fs out files) fs now
  reached : now = fs ∨ now.Open out
  decided : ∀ file ∈ files, j.Decided fs out files now (j.site fs out file)

end

section
variable {j : Job} {fs : Files} {out : Text} {files all : List Text} {file : Text} {now after : Files} {p : Place}

theorem decider_concat (files : List Text) (file : Text) (p : Place) : j.decider fs out (files ++ [file]) p =
    if j.incremental then (j.decider fs out files p).or (if j.site fs out file = p then some file else none)
    else if j.site fs out file = p then some file else j.decider fs out files p := by
  unfold decider
  cases j.incremental with
  | true =>
    rw [if_pos rfl, if_pos rfl, if_pos rfl, List.find?_append, List.find?_singleton]
    simp only [decide_eq_true_eq]
  | false =>
    rw [if_neg Bool.false_ne_true, if_neg Bool.false_ne_true, if_neg Bool.false_ne_true, List.reverse_concat,
      List.find?_cons]
    by_cases hp : j.site fs out file = p
    · rw [if_pos hp, decide_eq_true hp]
    · rw [if_neg hp, decide_eq_false hp]

theorem mem_of_decider (h : j.decider fs out files p = some file) : file ∈ files ∧ j.site fs out file = p := by
  unfold decider at h
  have hsite := List.find?_some h
  have hmem := List.mem_of_find?_eq_some h
  refine ⟨?_, of_decide_eq_true hsite⟩
  split at hmem
  · exact hmem
  · exact List.mem_reverse.1 hmem

theorem isOnWay_concat (h : j.IsOnWay fs out files p) (file : Text) : j.IsOnWay fs out (files ++ [file]) p := by
  obtain ⟨f, hf, hway⟩ := h
  exact ⟨f, List.mem_append_left _ hf, hway⟩

/-- A file that is there is known by a path that leads below any directory, unless it leads back up. -/
theorem descends_fileTask (hs : fs.Sound) {text : Text} {packed : Bool}
    (hfile : fs.find? file = some (.file text packed))
    (hup : Path.isAbsolute file = false → (".." : Text) ∉ Path.names file) :
    Path.Descends (fileTask file).path := by
  obtain ⟨hopen, hfind⟩ := Files.open_of_find? hfile
  obtain ⟨before, last, hnames, hlast⟩ := Files.ends_of_open hs hopen (by rw [hfind]; exact nofun)
  unfold fileTask
  cases habsolute : Path.isAbsolute file with
  | true =>
    have hbase : Path.basename file = last := by
      rw [Path.basename, hnames, List.getLastD_concat]
    dsimp only
    rw [if_pos rfl, hbase]
    exact (Path.Descends.of_isName hlast).1
  | false => exact ⟨habsolute, hup habsolute, before, last, hnames, hlast⟩

/-- The documents for two files go to one place exactly if they are known by the same names. -/
theorem site_eq_iff {other : Text} (h : Path.Descends (fileTask file).path)
    (h' : Path.Descends (fileTask other).path) : j.site fs out file = j.site fs out other ↔
      Path.ownNames (fileTask file).path = Path.ownNames (fileTask other).path := by
  rw [site, site, output, output, fs.aim_outputPath_of_descends out j.packed h,
    fs.aim_outputPath_of_descends out j.packed h']
  constructor
  · intro he
    exact outputNames_injective j.packed h.leadDown.ne_nil h'.leadDown.ne_nil (List.append_cancel_left he)
  · intro he
    rw [he]

theorem path_fileTask (hrelative : Path.isAbsolute file = false) : (fileTask file).path = file := by
  rw [fileTask, hrelative, if_neg Bool.false_ne_true]

theorem aim_of_relative (hrelative : Path.isAbsolute file = false) (h : Path.Descends (fileTask file).path) :
    fs.aim file = fs.here ++ Path.ownNames (fileTask file).path := by
  rw [path_fileTask hrelative] at h ⊢
  rw [Files.aim, Files.start, hrelative, if_neg Bool.false_ne_true, h.walk_names]

/-- Two files with one place for their documents are one and the same if they are not named from the top. -/
theorem aim_eq_of_site {other : Text} (h : Path.Descends (fileTask file).path)
    (h' : Path.Descends (fileTask other).path) (hrelative : Path.isAbsolute file = false)
    (hrelative' : Path.isAbsolute other = false) (hsite : j.site fs out file = j.site fs out other) :
    fs.aim file = fs.aim other := by
  rw [aim_of_relative hrelative h, aim_of_relative hrelative' h', (site_eq_iff h h').1 hsite]

/-- Files that are there, where nothing lies yet in the directory that documents go to. -/
theorem awaits_of_empty (hs : fs.Sound) (hout : j.out = .given out)
    (hfiles : ∀ file ∈ files, ∃ text packed, fs.find? file = some (.file text packed))
    (hup : ∀ file ∈ files, Path.isAbsolute file = false → (".." : Text) ∉ Path.names file)
    (hempty : ∀ ns, ns ≠ [] → fs.tree.find? (fs.aim out ++ ns) = none) : j.Awaits fs out files := by
  have hdescends : ∀ file ∈ files, Path.Descends (fileTask file).path := by
    intro file hfile
    obtain ⟨text, packed, hfind⟩ := hfiles file hfile
    exact descends_fileTask hs hfind (hup file hfile)
  refine ⟨hs, hout, hfiles, hdescends, fun file hfile => ?_⟩
  rw [site, output, fs.aim_outputPath_of_descends out j.packed (hdescends file hfile)]
  exact hempty _ (leadDown_outputNames j.packed (hdescends file hfile).leadDown).ne_nil

variable [Limits]

theorem exists_entry_of_decided (h : j.Decided fs out files now p) : ∃ e, now.tree.find? p = some e := by
  rcases h with ⟨-, hdirectory, -⟩ | ⟨-, -, text, -, hfind⟩
  · exact ⟨_, hdirectory⟩
  · exact ⟨_, hfind⟩

theorem Decided.holds (h : j.Decided fs out files now p)
    (hnone : j.incremental = true → now.tree.find? p ≠ some .directory)
    (hdecider : j.decider fs out files p = some file) : j.Holds fs now file p := by
  rcases h with ⟨hincremental, hdirectory, -⟩ | ⟨winner, hwinner, hholds⟩
  · exact absurd hdirectory (hnone hincremental)
  · obtain rfl : winner = file := Option.some.inj (hwinner.symm.trans hdecider)
    exact hholds

/-- What is decided about a place stays so while documents for other places are put. -/
theorem Decided.concat (h : j.Decided fs out files now p) (file : Text)
    (hother : j.incremental = true ∨ j.site fs out file ≠ p)
    (hdirectory : now.tree.find? p = some .directory → after.tree.find? p = some .directory)
    (hfile : ∀ text, now.tree.find? p = some (.file text j.packed) →
      after.tree.find? p = some (.file text j.packed)) :
    j.Decided fs out (files ++ [file]) after p := by
  rcases h with ⟨hincremental, hfind, other, hmem, hway⟩ | ⟨winner, hwinner, text, hdocument, hfind⟩
  · exact .inl ⟨hincremental, hdirectory hfind, other, List.mem_append_left _ hmem, hway⟩
  · refine .inr ⟨winner, ?_, text, hdocument, hfile text hfind⟩
    rw [decider_concat]
    rcases hother with hincremental | hne
    · rw [if_pos hincremental, hwinner, Option.some_or]
    · rw [if_neg hne, if_neg hne, Option.or_none, ite_self, hwinner]

/-- The files themselves stay as they are. -/
theorem Attended.contents_eq (h : j.Attended fs out files now) (ha : j.Awaits fs out all)
    (hfiles : ∀ f ∈ files, f ∈ all) (hfile : file ∈ all) : now.contents file = fs.contents file := by
  obtain ⟨text, packed, hfind⟩ := ha.isFile file hfile
  obtain ⟨hopen, hfind⟩ := Files.open_of_find? hfind
  refine h.grown.contents_eq hopen hfind ?_
  rintro e ⟨other, hother, -, -, hsite, -⟩
  rw [hsite, ha.missing other (hfiles other hother)] at hfind
  cases hfind

theorem isMade_concat {e : FileEntry} (h : j.IsMade fs out files p e) (file : Text) :
    j.IsMade fs out (files ++ [file]) p e := by
  obtain ⟨f, hf, hmade⟩ := h
  exact ⟨f, List.mem_append_left _ hf, hmade⟩

theorem Attended.grown_concat (h : j.Attended fs out files now) (file : Text) :
    Files.Grown (j.IsOnWay fs out (files ++ [file])) (j.IsMade fs out (files ++ [file])) fs now :=
  h.grown.mono (fun _ hp => isOnWay_concat hp file) fun _ _ he => isMade_concat he file

/-- A document is left alone because something lies in its place. -/
theorem Attended.skip (h : j.Attended fs out files now) (hmissing : fs.tree.find? (j.site fs out file) = none)
    (hincremental : j.incremental = true) (hholds : now.holds (j.output out file) = true) :
    j.Attended fs out (files ++ [file]) now := by
  have hkeep : ∀ p, j.Decided fs out files now p → j.Decided fs out (files ++ [file]) now p :=
    fun p hp => hp.concat file (.inl hincremental) id fun _ => id
  refine ⟨h.grown_concat file, h.reached, fun f hf => ?_⟩
  rcases List.mem_append.1 hf with hf | hf
  · exact hkeep _ (h.decided f hf)
  obtain rfl := List.mem_singleton.1 hf
  obtain ⟨e, he⟩ := Files.exists_of_holds hholds
  rw [Files.aim_eq h.grown.here] at he
  change now.tree.find? (j.site fs out f) = some e at he
  rcases h.grown.find? (j.site fs out f) with hsame | ⟨-, hdirectory, other, hother, hway⟩ |
    ⟨-, -, other, hother, -, -, hsite, -⟩
  · rw [hsame, hmissing] at he
    cases he
  · by_cases hsite : j.site fs out other = j.site fs out f
    · exact hkeep _ (hsite ▸ h.decided other hother)
    · exact .inl ⟨hincremental, hdirectory, other, List.mem_append_left _ hother, hsite, hway⟩
  · exact hkeep _ (hsite ▸ h.decided other hother)

/-- What lies in the place of a document is found by the next one who can put a document there. -/
theorem Attended.holds_of_locate (h : j.Attended fs out files now) (hs : fs.Sound)
    (hfile : Path.Descends (fileTask file).path) (hmissing : fs.tree.find? (j.site fs out file) = none)
    {e : FileEntry} (hfind : now.tree.find? (j.site fs out file) = some e) {made : Place → Prop}
    {put : Place → FileEntry → Prop} (hgrown : Files.Grown made put now after)
    (hloc : after.locate (j.output out file) = .ok (now.aim (j.output out file))) :
    now.holds (j.output out file) = true := by
  have hreached : now.Open out := h.reached.resolve_left fun hsame => by
    rw [hsame, hmissing] at hfind
    cases hfind
  have haim : now.aim (j.output out file) = j.site fs out file := Files.aim_eq h.grown.here _
  obtain ⟨-, hafter, -⟩ := Files.locate_eq_ok hloc
  have hopen : now.Open (j.output out file) :=
    Files.open_outputPath (h.grown.sound hs) hfile hreached (e := e) (haim.symm ▸ hfind)
  rw [Files.locate_of_open hgrown.here hopen hafter, haim] at hloc
  exact Files.holds_of_locate hloc hfind

/-- A document is put in its place. -/
theorem Attended.put (h : j.Attended fs out files now) (ha : j.Awaits fs out all) (hfile : file ∈ all) {text : Text}
    (hdocument : (j.document fs file).result = .ok (text, []))
    (hmissing : j.incremental = true → now.holds (j.output out file) = false)
    (hloc : after.locate (j.output out file) = .ok (now.aim (j.output out file)))
    (hfind : after.tree.find? (j.site fs out file) = some (.file text j.packed))
    (hgrown : Files.Grown (now.OnWay (j.output out file))
      (fun p e => p = j.site fs out file ∧ e = .file text j.packed) now after) :
    j.Attended fs out (files ++ [file]) after := by
  -- Where documents are left alone, this one would have been if anything were decided about its place.
  have hfirst : j.incremental = true → ∀ other ∈ files, j.site fs out other ≠ j.site fs out file := by
    intro hincremental other hother hsite
    obtain ⟨e, he⟩ := exists_entry_of_decided (h.decided other hother)
    rw [hsite] at he
    have hholds := h.holds_of_locate ha.sound (ha.descends file hfile) (ha.missing file hfile) he hgrown hloc
    rw [hmissing hincremental] at hholds
    cases hholds
  have hdecider : j.decider fs out (files ++ [file]) (j.site fs out file) = some file := by
    rw [decider_concat, if_pos rfl, if_pos rfl]
    split
    · rename_i hincremental
      cases hbefore : j.decider fs out files (j.site fs out file) with
      | none => rfl
      | some other =>
        obtain ⟨hother, hsite⟩ := mem_of_decider hbefore
        exact absurd hsite (hfirst hincremental other hother)
    · rfl
  have hmember : file ∈ files ++ [file] := List.mem_append_right files (List.mem_singleton_self file)
  have hhere : now.OnWay (j.output out file) = fs.OnWay (j.output out file) := Files.onWay_eq h.grown.here _
  refine ⟨?_, .inr ?_, fun f hf => ?_⟩
  · refine (h.grown_concat file).trans (hgrown.mono (fun p hp => ⟨file, hmember, hhere ▸ hp⟩) fun p e he => ?_)
    exact ⟨file, hmember, text, hdocument, he.1, he.2⟩
  · obtain ⟨-, hopen, -⟩ := Files.locate_eq_ok hloc
    obtain ⟨name, hname, hdescends, -⟩ := (ha.descends file hfile).outputPath_eq out j.packed
    rw [output, hname] at hopen
    exact (Files.open_of_open_join hdescends.relative hopen).1
  · by_cases hsite : j.site fs out file = j.site fs out f
    · rw [← hsite]
      exact .inr ⟨file, hdecider, text, hdocument, hfind⟩
    · have hbefore : f ∈ files := by
        rcases List.mem_append.1 hf with hf | hf
        · exact hf
        · exact absurd (congrArg _ (List.mem_singleton.1 hf).symm) hsite
      refine (h.decided f hbefore).concat file (.inr hsite) (hgrown.directory _) fun t ht => ?_
      exact hgrown.find?_of_some ht fun e he => hsite he.1.symm

/-- One more file about whose conversion nothing fails. -/
theorem Attended.convert (ha : j.Awaits fs out all) (hfiles : ∀ f ∈ files, f ∈ all) (hfile : file ∈ all)
    {c : Console} (h : j.Attended fs out files c.files) {s : Status}
    (hok : (j.convert c file (fileTask file).path).1 = .ok s) (hclean : s.failures = []) :
    j.Attended fs out (files ++ [file]) (j.convert c file (fileTask file).path).2.files := by
  have hsame : j.document c.files file = j.document fs file := document_congr (h.contents_eq ha hfiles hfile)
  rcases convert_cases ha.given c file (fileTask file).path with
    ⟨hincremental, hholds, hconvert⟩ | ⟨f, -, hconvert⟩ | ⟨text, failures, hdocument, hmissing, hconvert⟩
  · rw [hconvert]
    exact h.skip (ha.missing file hfile) hincremental hholds
  · rw [hconvert] at hok
    cases hok
  · rw [hconvert] at hok ⊢
    dsimp only at hok ⊢
    obtain ⟨ns, hresult, rfl⟩ := map_eq_ok.1 hok
    obtain rfl : failures = [] := hclean
    rcases (j.outputFor out (fileTask file).path).session_spec (h.grown.sound ha.sound) rfl
      (utf8?_of_document hdocument) with ⟨f, hfailed, -⟩ | ⟨-, hloc, hfind, hgrown⟩
    · rw [hfailed] at hresult
      cases hresult
    · have haim : c.files.aim (j.output out file) = j.site fs out file := Files.aim_eq h.grown.here _
      change (_ : Files).tree.find? (c.files.aim (j.output out file)) = _ at hfind
      rw [haim] at hfind
      refine h.put ha hfile (hsame ▸ hdocument) hmissing hloc hfind (hgrown.mono (fun _ => id) fun p e he => ?_)
      exact ⟨he.1.trans haim, he.2⟩

/-- No failure is ever taken back. -/
theorem eq_zero_of_convertAll {tell : Teller} (htell : ∀ c t r, (tell c t r).2.files = c.files) {c : Console}
    {failed : Nat} {ts : List Task} (h : (j.convertAll tell c failed ts).failed = .ok 0) : failed = 0 := by
  induction ts generalizing c failed with
  | nil => exact Except.ok.inj h
  | cons t ts ih =>
    rcases convertAll_cons htell j c failed t ts with ⟨_, f, hrun, -⟩ | ⟨c', failed', hrun, -, hzero⟩
    · rw [hrun] at h
      cases h
    · rw [hrun] at h
      exact (hzero (ih h)).1

/-- A run over single files that counts no failure. -/
theorem convertAll_attended {todo : List Text} (ha : j.Awaits fs out (files ++ todo)) {c : Console} {failed : Nat}
    (h : j.Attended fs out files c.files)
    (hzero : (j.convertAll .apart c failed (todo.map fileTask)).failed = .ok 0) :
    j.Attended fs out (files ++ todo) (j.convertAll .apart c failed (todo.map fileTask)).console.files := by
  induction todo generalizing files c failed with
  | nil =>
    rw [List.append_nil]
    exact h
  | cons file todo ih =>
    rw [List.map_cons] at hzero ⊢
    rcases convertAll_cons Teller.files_apart j c failed (fileTask file) (todo.map fileTask) with
      ⟨_, f, hrun, -⟩ | ⟨c', failed', hrun, hfiles, hnone⟩
    · rw [hrun] at hzero
      cases hzero
    · rw [hrun] at hzero ⊢
      -- No failure is taken back, so if none is counted in the end this file came out clean.
      obtain ⟨-, s, hok, hclean⟩ := hnone (eq_zero_of_convertAll Teller.files_apart hzero)
      have hstep := Attended.convert (c := (c.tell (fileTask file).heading).2) ha
        (fun f hf => List.mem_append_left _ hf) (List.mem_append_right files List.mem_cons_self)
        (by rwa [Console.files_tell]) hok hclean
      rw [List.append_cons] at ha ⊢
      exact ih ha (hfiles.symm ▸ hstep) hzero

/-- Two files that are known by the same names and are not named from the top have one document. -/
theorem Awaits.document_eq_ok_of_relative (ha : j.Awaits fs out all) {other : Text} (hfile : file ∈ all)
    (hother : other ∈ all) (hrelative : Path.isAbsolute file = false) (hrelative' : Path.isAbsolute other = false)
    (hsite : j.site fs out file = j.site fs out other) {made : Text × List Failure}
    (hdocument : (j.document fs other).result = .ok made) : (j.document fs file).result = .ok made := by
  have hdescends := ha.descends file hfile
  have hdescends' := ha.descends other hother
  have hnames := (site_eq_iff hdescends hdescends').1 hsite
  have hcontents : fs.contents file = fs.contents other := by
    obtain ⟨text, packed, hfind⟩ := ha.isFile file hfile
    obtain ⟨text', packed', hfind'⟩ := ha.isFile other hother
    have hplace := (Files.open_of_find? hfind).2
    rw [aim_eq_of_site hdescends hdescends' hrelative hrelative' hsite, (Files.open_of_find? hfind').2] at hplace
    obtain ⟨rfl, rfl⟩ := FileEntry.file.inj (Option.some.inj hplace)
    rw [Files.contents_of_find? hfind, Files.contents_of_find? hfind']
  have hname : Fixture.isPackedName file = Fixture.isPackedName other := by
    rw [path_fileTask hrelative] at hdescends hnames
    rw [path_fileTask hrelative'] at hdescends' hnames
    exact hdescends'.endsWith_eq hdescends hnames (by decide)
  rw [result_document, conversion] at hdocument ⊢
  obtain ⟨conversion, hconversion, hrest⟩ := bind_eq_ok.1 hdocument
  obtain ⟨fixture, hload, hconvert⟩ := bind_eq_ok.1 hconversion
  rw [Fixture.load_of_contents hcontents hname hload, ok_bind, hconvert, ok_bind, hrest]

/-- Two files decide the same about a place if they have the same documents. -/
theorem Holds.congr {other : Text} (h : j.Holds fs now other p)
    (hsame : (j.document fs file).result = (j.document fs other).result) : j.Holds fs now file p := by
  obtain ⟨text, hdocument, hfind⟩ := h
  exact ⟨text, hsame.trans hdocument, hfind⟩

theorem Holds.result_eq {other : Text} (h : j.Holds fs now file p) (h' : j.Holds fs now other p) :
    (j.document fs file).result = (j.document fs other).result := by
  obtain ⟨text, hdocument, hfind⟩ := h
  obtain ⟨text', hdocument', hfind'⟩ := h'
  rw [hfind] at hfind'
  obtain ⟨rfl, -⟩ := FileEntry.file.inj (Option.some.inj hfind')
  rw [hdocument, hdocument']

theorem Attended.forall_holds_iff (h : j.Attended fs out files now) :
    (∀ file ∈ files, j.Holds fs now file (j.site fs out file)) ↔
      (∀ file ∈ files, now.tree.find? (j.site fs out file) ≠ some .directory) ∧
        ∀ file ∈ files, ∀ other ∈ files, j.site fs out file = j.site fs out other →
          (j.document fs file).result = (j.document fs other).result := by
  constructor
  · intro hall
    refine ⟨fun file hfile hdirectory => ?_, fun file hfile other hother hsite => ?_⟩
    · obtain ⟨text, -, hfind⟩ := hall file hfile
      rw [hdirectory] at hfind
      cases hfind
    · exact (hall file hfile).result_eq (hsite ▸ hall other hother)
  · rintro ⟨hnone, hsame⟩ file hfile
    rcases h.decided file hfile with ⟨-, hdirectory, -⟩ | ⟨winner, hwinner, hholds⟩
    · exact absurd hdirectory (hnone file hfile)
    · obtain ⟨hmem, hsite⟩ := mem_of_decider hwinner
      exact hholds.congr (hsame file hfile winner hmem hsite.symm)

/-- If no file is named from the top, each has its own document, unless a directory is in the way. -/
theorem Attended.holds_of_relative (h : j.Attended fs out files now) (ha : j.Awaits fs out files)
    (hrelative : ∀ file ∈ files, Path.isAbsolute file = false) (hfile : file ∈ files) :
    j.Holds fs now file (j.site fs out file) ∨
      (j.incremental = true ∧ now.tree.find? (j.site fs out file) = some .directory) := by
  rcases h.decided file hfile with ⟨hincremental, hdirectory, -⟩ | ⟨winner, hwinner, text, hdocument, hfind⟩
  · exact .inr ⟨hincremental, hdirectory⟩
  · obtain ⟨hmem, hsite⟩ := mem_of_decider hwinner
    refine .inl ⟨text, ?_, hfind⟩
    exact ha.document_eq_ok_of_relative hfile hmem (hrelative file hfile) (hrelative winner hmem) hsite.symm hdocument

/-- A run over single files that ends with status zero, there being nothing at first where documents go. In the place
of the document for a file lies that of the last file with the same place, or of the first one if documents are left
alone; and then a directory may lie there too, on the way to another document. So all documents are there exactly if
there is no such directory and files with one place have the same document. Files have one place if they are known
by the same names; two that are not named from the top are then one and the same, so if none is named from the top
only a directory keeps a document from its place. -/
theorem convertFiles_holds_iff {c : Console} (hs : c.files.Sound) (hout : j.out = .given out)
    (hfiles : ∀ file ∈ files, ∃ text packed, c.files.find? file = some (.file text packed))
    (hup : ∀ file ∈ files, Path.isAbsolute file = false → (".." : Text) ∉ Path.names file)
    (hempty : ∀ ns, ns ≠ [] → c.files.tree.find? (c.files.aim out ++ ns) = none)
    (hzero : (j.convertFiles c files).status = .ok 0) :
    (∀ file ∈ files,
      j.Decided c.files out files (j.convertFiles c files).console.files (j.site c.files out file)) ∧
    ((∀ file ∈ files, j.Holds c.files (j.convertFiles c files).console.files file (j.site c.files out file)) ↔
      (∀ file ∈ files,
        (j.convertFiles c files).console.files.tree.find? (j.site c.files out file) ≠ some .directory) ∧
      ∀ file ∈ files, ∀ other ∈ files, j.site c.files out file = j.site c.files out other →
        (j.document c.files file).result = (j.document c.files other).result) ∧
    (∀ file ∈ files, ∀ other ∈ files,
      (j.site c.files out file = j.site c.files out other ↔
        Path.ownNames (fileTask file).path = Path.ownNames (fileTask other).path) ∧
      (Path.isAbsolute file = false → Path.isAbsolute other = false →
        j.site c.files out file = j.site c.files out other → c.files.aim file = c.files.aim other)) ∧
    ((∀ file ∈ files, Path.isAbsolute file = false) → ∀ file ∈ files,
      j.Holds c.files (j.convertFiles c files).console.files file (j.site c.files out file) ∨
        (j.incremental = true ∧
          (j.convertFiles c files).console.files.tree.find? (j.site c.files out file) = some .directory)) := by
  have ha : j.Awaits c.files out files := awaits_of_empty hs hout hfiles hup hempty
  have hstart : j.Attended c.files out [] c.files := ⟨.refl _ _ _, .inl rfl, nofun⟩
  have hattended : j.Attended c.files out files (j.convertFiles c files).console.files :=
    convertAll_attended ha hstart (Progress.status_eq_zero_iff.1 hzero)
  refine ⟨hattended.decided, hattended.forall_holds_iff, fun file hfile other hother => ?_,
    fun hrelative file hfile => hattended.holds_of_relative ha hrelative hfile⟩
  have hfile := ha.descends file hfile
  have hother := ha.descends other hother
  exact ⟨site_eq_iff hfile hother, aim_eq_of_site hfile hother⟩

theorem exists_document_of_clean
    (h : ((j.document fs file).result.toOption.map fun made => made.2.isEmpty) = some true) :
    ∃ text, (j.document fs file).result = .ok (text, []) := by
  obtain ⟨⟨text, failures⟩, hmade, hclean⟩ := Option.map_eq_some_iff.1 h
  obtain rfl := List.isEmpty_iff.1 hclean
  exact ⟨text, eq_ok_of_toOption hmade⟩

/-- Where no file holds the text of a document, it lies at no place. -/
theorem not_holds_of_not_mem (h : ((j.document fs file).result.toOption.map fun made =>
    FileEntry.file made.1 j.packed) ∉ now.tree.entries.map fun e => some e.2) (p : Place) :
    ¬ j.Holds fs now file p := by
  rintro ⟨text, hdocument, hfind⟩
  have hne : p ≠ [] := by
    rintro rfl
    cases hfind
  rw [FileTree.find?_of_ne_nil _ hne] at hfind
  refine h (List.mem_map.2 ⟨_, mem_of_lookup hfind, ?_⟩)
  rw [hdocument]
  rfl

end

def sendFixture : Json := .object ((callFixture.fields.toOption.getD []).map fun f => ("send", f.2))

def scattered : Console where
  files :=
    let tree := FileTree.empty
      |>.putFile ["left", "call.json"] (callFixture.dump false) false
      |>.putFile ["right", "call.json"] (sendFixture.dump false) false
      |>.putFile ["work", "call.json"] (callFixture.dump false) false
      |>.putFile ["work", "call.json.gz", "send.json"] (sendFixture.dump false) false
      |>.put ["work", "docs"] .directory
    ⟨tree, ["work"]⟩

def overwritingJob : Job := { resumingJob.on prompt with out := .given "docs", incremental := false }

def sparingJob : Job := { overwritingJob with packed := true, incremental := true }

def sameName : List Text := ["/left/call.json", "/right/call.json", "./call.json.gz//send.json"]

def sameWay : List Text := ["call.json.gz/send.json", "call.json"]

theorem missing_scattered {ns : List Text} (h : ns ≠ []) :
    scattered.files.tree.find? (scattered.files.aim "docs" ++ ns) = none := by
  obtain ⟨n, ns, rfl⟩ := List.exists_cons_of_ne_nil h
  rfl

theorem isFile_scattered {file : Text} (h : file ∈ sameName ++ sameWay) :
    ∃ text packed, scattered.files.find? file = some (.file text packed) := by
  have hall : ∀ file ∈ sameName ++ sameWay,
      scattered.files.find? file = some (.file (callFixture.dump false) false) ∨
        scattered.files.find? file = some (.file (sendFixture.dump false) false) := by decide +kernel
  exact (hall file h).elim (fun he => ⟨_, _, he⟩) fun he => ⟨_, _, he⟩

theorem status_sameName : letI : Limits := .unbounded
    (overwritingJob.convertFiles scattered sameName).status = .ok 0 := by
  let _ : Limits := .unbounded
  exact eq_ok_of_toOption (by decide +kernel)

/-- Of two files with one name the document for the second one lies in the place of both, and it is another one. -/
theorem convertFiles_holds_iff_sameName : letI : Limits := .unbounded
    scattered.files.Sound ∧ (overwritingJob.convertFiles scattered sameName).status = .ok 0 ∧
      overwritingJob.Holds scattered.files (overwritingJob.convertFiles scattered sameName).console.files
        "/right/call.json" (overwritingJob.site scattered.files "docs" "/left/call.json") ∧
      overwritingJob.Holds scattered.files (overwritingJob.convertFiles scattered sameName).console.files
        "./call.json.gz//send.json" (overwritingJob.site scattered.files "docs" "./call.json.gz//send.json") ∧
      ¬ ∀ file ∈ sameName, overwritingJob.Holds scattered.files
        (overwritingJob.convertFiles scattered sameName).console.files file
        (overwritingJob.site scattered.files "docs" file) := by
  let _ : Limits := .unbounded
  have hs : scattered.files.Sound := by decide +kernel
  have hout : overwritingJob.out = .given "docs" := rfl
  obtain ⟨hdecided, hiff, -, -⟩ := convertFiles_holds_iff hs hout
    (fun file hfile => isFile_scattered (List.mem_append_left _ hfile)) (by decide +kernel)
    (fun _ => missing_scattered) status_sameName
  have hleft := hdecided "/left/call.json" (by decide +kernel)
  have hsend := hdecided "./call.json.gz//send.json" (by decide +kernel)
  have hoverwrites : overwritingJob.incremental ≠ true := Bool.false_ne_true
  refine ⟨hs, status_sameName, hleft.holds (fun h => absurd h hoverwrites) (by decide +kernel),
    hsend.holds (fun h => absurd h hoverwrites) (by decide +kernel), fun hall => ?_⟩
  have hsame := (hiff.1 hall).2 "/left/call.json" (by decide +kernel) "/right/call.json" (by decide +kernel) rfl
  exact absurd (congrArg (fun made => made.toOption.map Prod.fst) hsame) (by decide +kernel)

def leadingUp : Console where
  files :=
    let tree := FileTree.empty
      |>.putFile ["call.json"] (sendFixture.dump false) false
      |>.putFile ["work", "call.json"] (callFixture.dump false) false
      |>.put ["work", "docs"] .directory
    ⟨tree, ["work"]⟩

/-- A file whose path leads up has its document beside the directory for documents, empty as this may be. Here a fixture
lies in its place, which passes for the document. -/
theorem not_decided_leadingUp : letI : Limits := .unbounded
    let j : Job := { overwritingJob with incremental := true }
    leadingUp.files.Sound ∧ (∃ text packed, leadingUp.files.find? "../call.json" = some (.file text packed)) ∧
      (∀ ns, ns ≠ [] → leadingUp.files.tree.find? (leadingUp.files.aim "docs" ++ ns) = none) ∧
      (j.convertFiles leadingUp ["../call.json"]).status = .ok 0 ∧
      ¬ j.Decided leadingUp.files "docs" ["../call.json"] (j.convertFiles leadingUp ["../call.json"]).console.files
        (j.site leadingUp.files "docs" "../call.json") := by
  let _ : Limits := .unbounded
  refine ⟨by decide +kernel, ⟨_, _, rfl⟩, fun ns h => ?_, eq_ok_of_toOption (by decide +kernel), ?_⟩
  · obtain ⟨n, ns, rfl⟩ := List.exists_cons_of_ne_nil h
    rfl
  · rintro (⟨-, hdirectory, -⟩ | ⟨file, hdecider, hholds⟩)
    · exact absurd hdirectory (by decide +kernel)
    · obtain rfl : file = "../call.json" := List.mem_singleton.1 (mem_of_decider hdecider).1
      exact not_holds_of_not_mem (by decide +kernel) _ hholds

/-- Documents are lost: one is overwritten by that for another file of the same name, one is taken to be there already
because of a directory. -/
theorem not_holds_sameWay : letI : Limits := .unbounded
    scattered.files.Sound ∧
      (∀ ns, ns ≠ [] → scattered.files.tree.find? (scattered.files.aim "docs" ++ ns) = none) ∧
      (∀ file ∈ sameName ++ sameWay, ∃ text packed, scattered.files.find? file = some (.file text packed)) ∧
      (sameName.map scattered.files.aim).Nodup ∧ (sameWay.map scattered.files.aim).Nodup ∧
      overwritingJob.output "docs" "/left/call.json" = overwritingJob.output "docs" "/right/call.json" ∧
      (overwritingJob.convertFiles scattered sameName).status = .ok 0 ∧
      (∀ p, ¬ overwritingJob.Holds scattered.files (overwritingJob.convertFiles scattered sameName).console.files
        "/left/call.json" p) ∧
      (sparingJob.convertFiles scattered sameWay).status = .ok 0 ∧
      (∃ text, (sparingJob.document scattered.files "call.json").result = .ok (text, [])) ∧
      ∀ p, ¬ sparingJob.Holds scattered.files (sparingJob.convertFiles scattered sameWay).console.files
        "call.json" p := by
  let _ : Limits := .unbounded
  refine ⟨by decide +kernel, fun _ => missing_scattered, fun _ => isFile_scattered, by decide +kernel,
    by decide +kernel, by decide +kernel, status_sameName, not_holds_of_not_mem (by decide +kernel),
    eq_ok_of_toOption (by decide +kernel), exists_document_of_clean (by decide +kernel),
    not_holds_of_not_mem (by decide +kernel)⟩

end Job

end CallTrace
