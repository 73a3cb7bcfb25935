import CallTrace.Proofs.FileTree

namespace CallTrace
open Attempt

namespace Files

def start (fs : Files) (path : Text) : Place := if Path.isAbsolute path then [] else fs.here

def aim (fs : Files) (path : Text) : Place := (fs.start path).walk (Path.names path)

def OnWay (fs : Files) (path : Text) (p : Place) : Prop :=
  ∃ names, names <+: Path.names path ∧ p = (fs.start path).walk names

def Open (fs : Files) (path : Text) : Prop := fs.tree.Open (fs.start path) (Path.names path)

structure Sound (fs : Files) : Prop where
  tree : fs.tree.Sound
  here : fs.tree.find? fs.here = some .directory

instance (fs : Files) : Decidable fs.Sound :=
  decidable_of_iff (_ ∧ _) ⟨fun ⟨h, h'⟩ => ⟨h, h'⟩, fun h => ⟨h.tree, h.here⟩⟩

variable {fs fs' fs'' : Files} {path : Text} {p : Place}

theorem start_eq (h : fs'.here = fs.here) (path : Text) : fs'.start path = fs.start path := by
  rw [start, start, h]

theorem aim_eq (h : fs'.here = fs.here) (path : Text) : fs'.aim path = fs.aim path := by
  rw [aim, aim, start_eq h]

theorem onWay_eq (h : fs'.here = fs.here) (path : Text) : fs'.OnWay path = fs.OnWay path := by
  unfold OnWay
  rw [start_eq h]

theorem Sound.start (h : fs.Sound) (path : Text) : fs.tree.find? (fs.start path) = some .directory := by
  unfold Files.start
  split
  · rfl
  · exact h.here

theorem start_join (fs : Files) (directory : Text) (h : Path.isAbsolute path = false) :
    fs.start (Path.join directory path) = fs.start directory := by
  rw [Files.start, Files.start, Path.isAbsolute_join h]

/-- A path below a directory leads on from the place of the directory. -/
theorem aim_join (fs : Files) (directory : Text) (h : Path.isAbsolute path = false) :
    fs.aim (Path.join directory path) = (fs.aim directory).walk (Path.names path) := by
  obtain ⟨before, hjoin, hdirectory⟩ := Path.names_join directory h
  rw [aim, aim, start_join fs directory h, hjoin, Place.walk_append]
  rcases hdirectory with hdirectory | hdirectory
  · rw [hdirectory]
  · rw [hdirectory, Place.walk_append, Place.walk_empty]

theorem open_join {directory : Text} (h : Path.isAbsolute path = false) (hdirectory : fs.Open directory)
    (hpath : fs.tree.Open (fs.aim directory) (Path.names path)) : fs.Open (Path.join directory path) := by
  obtain ⟨before, hjoin, hnames⟩ := Path.names_join directory h
  rw [Open] at hdirectory ⊢
  rw [start_join fs directory h, hjoin, FileTree.open_append]
  rw [aim] at hpath
  rcases hnames with hnames | hnames
  · rw [hnames] at hdirectory hpath
    exact ⟨hdirectory, hpath⟩
  · rw [hnames, FileTree.open_append] at hdirectory
    rw [hnames, Place.walk_append, Place.walk_empty] at hpath
    exact ⟨hdirectory.1, hpath⟩

theorem place_of_open (h : fs.Open path) (hne : path ≠ []) : fs.place path =
    if (Path.names path).all FileTree.fits then .ok (fs.aim path) else .error (.tooLong path) := by
  rw [place, if_neg fun he => hne (List.isEmpty_iff.1 he)]
  exact FileTree.follow_of_open path h

theorem locate_eq_ok (h : fs.locate path = .ok p) : path ≠ [] ∧ fs.Open path ∧ p = fs.aim path := by
  obtain ⟨bs, -, h⟩ := bind_eq_ok.1 h
  split at h
  · cases h
  change (fs.place path).mapError Fault.file = .ok p at h
  unfold Except.mapError at h
  split at h
  · cases h
  rename_i q hq
  obtain rfl := Except.ok.inj h
  have hne : path ≠ [] := by
    rintro rfl
    cases hq
  have hplace := hq
  rw [place, if_neg fun he => hne (List.isEmpty_iff.1 he)] at hplace
  have hopen : fs.Open path := FileTree.open_of_follow hplace
  rw [place_of_open hopen hne] at hq
  split at hq
  · exact ⟨hne, hopen, (Except.ok.inj hq).symm⟩
  · cases hq

theorem holds_of_locate {e : FileEntry} (hloc : fs.locate path = .ok p) (hfind : fs.tree.find? p = some e) :
    fs.holds path = true := by
  rw [holds, find?, hloc]
  dsimp only
  rw [hfind]
  rfl

theorem locate_of_holds (h : fs.holds path = true) : fs.locate path = .ok (fs.aim path) := by
  unfold holds find? at h
  cases hloc : fs.locate path with
  | error f =>
    rw [hloc] at h
    cases h
  | ok p =>
    obtain ⟨-, -, rfl⟩ := locate_eq_ok hloc
    rfl

theorem exists_of_holds (h : fs.holds path = true) : ∃ e, fs.tree.find? (fs.aim path) = some e := by
  have hloc := locate_of_holds h
  unfold holds find? at h
  rw [hloc] at h
  exact Option.isSome_iff_exists.1 h

/-- Whether one gets to the end of a way with directories on it depends on the names alone. -/
theorem locate_of_open (hhere : fs'.here = fs.here) (h : fs.Open path) (h' : fs'.Open path) :
    fs'.locate path = fs.locate path := by
  have hplace : fs'.place path = fs.place path := by
    cases path with
    | nil => rfl
    | cons c path =>
      rw [place_of_open h (List.cons_ne_nil c path), place_of_open h' (List.cons_ne_nil c path), aim_eq hhere]
  rw [locate, locate, hplace]

/-- What lies where a path leads to lies in a directory, under a name. -/
theorem Sound.within (hs : fs.Sound) (h : fs.Open path) (hfind : fs.tree.find? (fs.aim path) ≠ some .directory) :
    ∃ d name, fs.aim path = d ++ [name] ∧ Path.IsName name ∧ fs.tree.find? d = some .directory :=
  (hs.tree.end_of_open (hs.start path) h fun _ hname => Path.slash_not_mem_of_mem_names hname).resolve_left hfind

/-- Files that have come out of others. All directories are still there, and whatever else differs is a new
directory at a place that `made` tells, or as `put` tells. -/
structure Grown (made : Place → Prop) (put : Place → FileEntry → Prop) (fs fs' : Files) : Prop where
  here : fs'.here = fs.here
  directory : ∀ p, fs.tree.find? p = some .directory → fs'.tree.find? p = some .directory
  find? : ∀ p, fs'.tree.find? p = fs.tree.find? p ∨
    (fs.tree.find? p = none ∧ fs'.tree.find? p = some .directory ∧ made p) ∨
    ∃ e, fs'.tree.find? p = some e ∧ put p e
  sound : fs.Sound → fs'.Sound

namespace Grown

variable {made made' : Place → Prop} {put put' : Place → FileEntry → Prop}

theorem refl (made : Place → Prop) (put : Place → FileEntry → Prop) (fs : Files) : Grown made put fs fs :=
  ⟨rfl, fun _ h => h, fun _ => .inl rfl, id⟩

theorem mono (h : Grown made put fs fs') (hmade : ∀ p, made p → made' p) (hput : ∀ p e, put p e → put' p e) :
    Grown made' put' fs fs' :=
  ⟨h.here, h.directory, fun p => (h.find? p).imp_right <| Or.imp
    (fun ⟨hbefore, hafter, hp⟩ => ⟨hbefore, hafter, hmade p hp⟩) fun ⟨e, he, hp⟩ => ⟨e, he, hput p e hp⟩, h.sound⟩

theorem trans (h : Grown made put fs fs') (h' : Grown made put fs' fs'') : Grown made put fs fs'' := by
  refine ⟨h'.here.trans h.here, fun p hp => h'.directory p (h.directory p hp), fun p => ?_, h'.sound ∘ h.sound⟩
  rcases h'.find? p with hsame | ⟨hnone, hmade⟩ | hput
  · rw [hsame]
    exact h.find? p
  · rcases h.find? p with hsame | ⟨-, hsome, -⟩ | ⟨e, hsome, -⟩
    · exact .inr (.inl ⟨hsame ▸ hnone, hmade⟩)
    · rw [hnone] at hsome
      cases hsome
    · rw [hnone] at hsome
      cases hsome
  · exact .inr (.inr hput)

theorem open_path (h : Grown made put fs fs') (hopen : fs.Open path) : fs'.Open path := by
  rw [Open, start_eq h.here]
  exact FileTree.Open.mono h.directory hopen

/-- What lay anywhere lies there still, unless a file was put there. -/
theorem find?_of_some (h : Grown made put fs fs') {e : FileEntry} (hp : fs.tree.find? p = some e)
    (hput : ∀ e, ¬ put p e) : fs'.tree.find? p = some e := by
  rcases h.find? p with hsame | ⟨hnone, -⟩ | ⟨e', -, he'⟩
  · rw [hsame, hp]
  · rw [hp] at hnone
    cases hnone
  · exact absurd he' (hput e')

theorem exists_entry (h : Grown made put fs fs') (hp : ∃ e, fs.tree.find? p = some e) :
    ∃ e, fs'.tree.find? p = some e := by
  rcases h.find? p with hsame | ⟨-, hmade, -⟩ | ⟨e, he, -⟩
  · rwa [hsame]
  · exact ⟨_, hmade⟩
  · exact ⟨e, he⟩

theorem locate_of_ok (h : Grown made put fs fs') (hloc : fs.locate path = .ok p) : fs'.locate path = .ok p := by
  obtain ⟨-, hopen, -⟩ := locate_eq_ok hloc
  rw [locate_of_open h.here hopen (h.open_path hopen), hloc]

theorem holds (h : Grown made put fs fs') (hheld : fs.holds path = true) : fs'.holds path = true := by
  obtain ⟨e, he⟩ := h.exists_entry (exists_of_holds hheld)
  exact holds_of_locate (h.locate_of_ok (locate_of_holds hheld)) he

theorem contents_eq (h : Grown made put fs fs') (hopen : fs.Open path) {e : FileEntry}
    (hfind : fs.tree.find? (fs.aim path) = some e) (hput : ∀ e, ¬ put (fs.aim path) e) :
    fs'.contents path = fs.contents path := by
  rw [contents, contents, locate_of_open h.here hopen (h.open_path hopen)]
  cases hloc : fs.locate path with
  | error f => rfl
  | ok p =>
    obtain ⟨-, -, rfl⟩ := locate_eq_ok hloc
    rw [ok_bind, ok_bind, h.find?_of_some hfind hput, hfind]

end Grown

theorem grown_put (hs : fs.Sound) {e : FileEntry} (hopen : fs.Open path)
    (hfind : fs.tree.find? (fs.aim path) ≠ some .directory) {made : Place → Prop} {put : Place → FileEntry → Prop}
    (hnew : (fs.tree.find? (fs.aim path) = none ∧ e = .directory ∧ made (fs.aim path)) ∨ put (fs.aim path) e) :
    Grown made put fs { fs with tree := fs.tree.put (fs.aim path) e } := by
  obtain ⟨d, name, haim, hname, hd⟩ := hs.within hopen hfind
  have hne := FileTree.ne_nil_of_find? hfind
  have hdirectory : ∀ p, fs.tree.find? p = some .directory →
      (fs.tree.put (fs.aim path) e).find? p = some .directory := by
    intro p hp
    have hother : p ≠ fs.aim path := by
      rintro rfl
      exact hfind hp
    rwa [FileTree.find?_put_ne _ hother]
  refine ⟨rfl, hdirectory, fun p => ?_, fun _ => ⟨?_, hdirectory _ hs.here⟩⟩
  · by_cases hp : p = fs.aim path
    · subst hp
      show (fs.tree.put (fs.aim path) e).find? _ = _ ∨ _
      rw [FileTree.find?_put_self _ hne]
      rcases hnew with ⟨hnone, rfl, hmade⟩ | hput
      · exact .inr (.inl ⟨hnone, rfl, hmade⟩)
      · exact .inr (.inr ⟨e, rfl, hput⟩)
    · exact .inl (FileTree.find?_put_ne _ hp e)
  · exact hs.tree.put haim hname hd fun h => absurd h hfind

theorem grown_of_ensureDirectory (hs : fs.Sound) (h : fs.ensureDirectory path = .ok fs') :
    Grown (· = fs.aim path) (fun _ _ => False) fs fs' := by
  unfold ensureDirectory at h
  split at h
  · rename_i hmade
    obtain rfl := Except.ok.inj h
    obtain ⟨p, hloc, hmade⟩ := bind_eq_ok.1 hmade
    obtain ⟨-, hopen, rfl⟩ := locate_eq_ok hloc
    cases hfind : fs.tree.find? (fs.aim path) with
    | some e =>
      rw [hfind] at hmade
      cases hmade
    | none =>
      rw [hfind] at hmade
      obtain rfl := Except.ok.inj hmade
      exact grown_put hs hopen (by simp [hfind]) (.inl ⟨hfind, rfl, rfl⟩)
  · split at h
    · obtain rfl := Except.ok.inj h
      exact .refl _ _ fs
    · cases h

/-- On the way nothing is made but directories, also if not all of them can be. -/
theorem grown_ensureWay (hs : fs.Sound) (paths : List Text) :
    Grown (fun p => ∃ path ∈ paths, p = fs.aim path) (fun _ _ => False) fs (fs.ensureWay paths).2 := by
  induction paths generalizing fs with
  | nil => exact .refl _ _ fs
  | cons path paths ih =>
    have hothers : ∀ p, (∃ path ∈ paths, p = fs.aim path) → ∃ path' ∈ path :: paths, p = fs.aim path' :=
      fun p ⟨path', hpath', hp⟩ => ⟨path', List.mem_cons_of_mem path hpath', hp⟩
    unfold ensureWay
    split
    · exact (ih hs).mono hothers fun _ _ h => h
    · split
      · rename_i fs' hfs'
        have hfirst := grown_of_ensureDirectory hs hfs'
        have hrest := ih (hfirst.sound hs)
        simp only [aim_eq hfirst.here] at hrest
        refine (hfirst.mono (fun p hp => ⟨path, List.mem_cons_self, hp⟩) fun _ _ h => h).trans ?_
        exact hrest.mono hothers fun _ _ h => h
      · exact .refl _ _ fs

end Files

end CallTrace
