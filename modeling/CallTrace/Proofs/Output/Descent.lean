import CallTrace.Proofs.Output

namespace CallTrace
open Attempt

namespace Place

/-- Names that say nothing lead nowhere. -/
theorem walk_filter_counts (p : Place) (names : List Text) : p.walk (names.filter Path.counts) = p.walk names := by
  induction names generalizing p with
  | nil => rfl
  | cons name names ih =>
    show _ = (p.step name).walk names
    rw [List.filter_cons]
    cases hcounts : Path.counts name with
    | true => exact ih (p.step name)
    | false =>
      have hstep : p.step name = p := by rw [step, hcounts, Bool.not_false, if_pos rfl]
      rw [if_neg Bool.false_ne_true, hstep, ih]

end Place

namespace FileTree

/-- Names that say nothing do not keep anyone from the end of a way, unless they stand there themselves. -/
theorem open_of_filter_counts {t : FileTree} {p : Place} {names : List Text}
    (hlast : ∀ name ∈ names.getLast?, Path.counts name = true) (h : t.Open p (names.filter Path.counts)) :
    t.Open p names := by
  induction names generalizing p with
  | nil => trivial
  | cons name names ih =>
    have hrest : ∀ last ∈ names.getLast?, Path.counts last = true := by
      cases names with
      | nil => exact nofun
      | cons next names => rwa [List.getLast?_cons_cons] at hlast
    rw [List.filter_cons] at h
    cases hcounts : Path.counts name with
    | true =>
      rw [hcounts, if_pos rfl] at h
      exact ⟨h.1, ih hrest h.2⟩
    | false =>
      rw [hcounts, if_neg Bool.false_ne_true] at h
      -- A name that says nothing leads nowhere, and there is one behind it.
      have hstep : p.step name = p := by rw [Place.step, hcounts, Bool.not_false, if_pos rfl]
      have hopen := ih hrest h
      cases names with
      | nil =>
        rw [hlast name rfl] at hcounts
        cases hcounts
      | cons next names => exact ⟨hopen.1, by rwa [hstep]⟩

end FileTree

namespace Path

/-- What stands behind a path stands behind its last name. -/
theorem names_append (path : Text) {ending : Text} (hslash : (.char '/' : CodePoint) ∉ ending) :
    names (path ++ ending) = (names path).modifyLast (· ++ ending) := by
  obtain ⟨before, last, hnames⟩ : ∃ before last, names path = before ++ [last] :=
    ⟨_, _, (List.dropLast_concat_getLast (names_ne_nil path)).symm⟩
  have hparts := ofNames_append (names path) (names_ne_nil path) ending
  rw [ofNames_names] at hparts
  rw [hparts, hnames, List.modifyLast_concat]
  refine names_ofNames (fun name hname => ?_) (by simp)
  rcases List.mem_append.1 hname with hname | hname
  · have hmem : name ∈ names path := hnames ▸ List.mem_append_left [last] hname
    exact slash_not_mem_of_mem_names hmem
  · have hmem : last ∈ names path := hnames ▸ List.mem_append_right before (List.mem_singleton_self last)
    rw [List.mem_singleton.1 hname, List.mem_append, not_or]
    exact ⟨slash_not_mem_of_mem_names hmem, hslash⟩

/-- A path ends like its last name. -/
theorem isSuffix_iff {path ending last : Text} {before : List Text} (hslash : (.char '/' : CodePoint) ∉ ending)
    (hnames : names path = before ++ [last]) : ending <:+ path ↔ ending <:+ last := by
  constructor
  · rintro ⟨front, rfl⟩
    obtain ⟨others, shorter, hfront⟩ : ∃ others shorter, names front = others ++ [shorter] :=
      ⟨_, _, (List.dropLast_concat_getLast (names_ne_nil front)).symm⟩
    rw [names_append front hslash, hfront, List.modifyLast_concat] at hnames
    obtain ⟨-, hlast⟩ := List.append_inj' hnames rfl
    exact ⟨shorter, List.singleton_inj.1 hlast⟩
  · rintro ⟨shorter, rfl⟩
    have hparts := ofNames_append (before ++ [shorter]) (by simp) ending
    rw [List.modifyLast_concat, ← hnames, ofNames_names] at hparts
    exact ⟨_, hparts⟩

def ownNames (path : Text) : List Text := (names path).filter counts

/-- A relative path that never leads back up, with a name at its end. -/
structure Descends (path : Text) : Prop where
  relative : isAbsolute path = false
  noUp : (".." : Text) ∉ names path
  ends : ∃ before last, names path = before ++ [last] ∧ IsName last

namespace Descends

variable {path : Text}

theorem ne_nil (h : Descends path) : path ≠ [] := by
  rintro rfl
  obtain ⟨before, last, hnames, hlast⟩ := h.ends
  rw [names_nil] at hnames
  obtain ⟨-, hempty⟩ := List.append_inj' (show [] ++ [[]] = before ++ [last] from hnames) rfl
  exact hlast.ne_nil (List.singleton_inj.1 hempty).symm

theorem ownNames_eq {before : List Text} {last : Text} (hnames : names path = before ++ [last])
    (hlast : IsName last) : ownNames path = before.filter counts ++ [last] := by
  rw [ownNames, hnames, List.filter_append, List.filter_cons_of_pos hlast.counts, List.filter_nil]

theorem leadDown (h : Descends path) : LeadDown (ownNames path) := by
  obtain ⟨before, last, hnames, hlast⟩ := h.ends
  constructor
  · rw [ownNames_eq hnames hlast]
    exact List.append_ne_nil_of_right_ne_nil _ (List.cons_ne_nil last [])
  · intro name hname
    obtain ⟨hmem, hcounts⟩ := List.mem_filter.1 hname
    exact ⟨hcounts, fun he => h.noUp (he ▸ hmem), slash_not_mem_of_mem_names hmem⟩

theorem walk_names (h : Descends path) (p : Place) : p.walk (names path) = p ++ ownNames path := by
  rw [← Place.walk_filter_counts]
  exact Place.walk_of_isName p h.leadDown.isName

/-- One gets to whatever lies there. -/
theorem open_of_find? (h : Descends path) {t : FileTree} (ht : t.Sound) {p : Place} {e : FileEntry}
    (hfind : t.find? (p ++ ownNames path) = some e) : t.Open p (names path) := by
  obtain ⟨before, last, hnames, hlast⟩ := h.ends
  obtain ⟨-, hopen, -⟩ := ht.open_of_find? h.leadDown.ne_nil hfind
  refine FileTree.open_of_filter_counts (fun name hname => ?_) hopen
  rw [hnames, List.getLast?_concat] at hname
  rw [← Option.some.inj hname]
  exact hlast.counts

theorem of_isName {name : Text} (h : IsName name) : Descends name ∧ ownNames name = [name] := by
  have hdown : LeadDown [name] := ⟨List.cons_ne_nil name [], fun n hn => List.mem_singleton.1 hn ▸ h⟩
  have hpath : ofNames [name] = name := by simp [ofNames, Text.join]
  have hnames : names name = [name] := by
    have hparts := hdown.names_ofNames
    rwa [hpath] at hparts
  have hrelative : isAbsolute name = false := by
    have hfirst := hdown.isAbsolute_eq_false
    rwa [hpath] at hfirst
  refine ⟨⟨hrelative, ?_, [], name, hnames, h⟩, ?_⟩
  · rw [hnames, List.mem_singleton]
    exact h.ne_up.symm
  · rw [ownNames, hnames, List.filter_cons_of_pos h.counts, List.filter_nil]

/-- Paths of the same names end alike. -/
theorem endsWith_eq {other : Text} (h : Descends path) (h' : Descends other) (hsame : ownNames other = ownNames path)
    {ending : Text} (hslash : (.char '/' : CodePoint) ∉ ending) : other.endsWith ending = path.endsWith ending := by
  obtain ⟨before, last, hnames, hlast⟩ := h.ends
  obtain ⟨before', last', hnames', hlast'⟩ := h'.ends
  rw [ownNames_eq hnames hlast, ownNames_eq hnames' hlast'] at hsame
  obtain ⟨-, hlasts⟩ := List.append_inj' hsame rfl
  rw [Bool.eq_iff_iff, Text.endsWith, Text.endsWith, List.isSuffixOf_iff_suffix, List.isSuffixOf_iff_suffix,
    isSuffix_iff hslash hnames, isSuffix_iff hslash hnames', List.singleton_inj.1 hlasts]

/-- A longer last name is still a last name. -/
theorem append (h : Descends path) {ending : Text} (hlong : 2 < ending.length)
    (hslash : (.char '/' : CodePoint) ∉ ending) :
    Descends (path ++ ending) ∧ ownNames (path ++ ending) = (ownNames path).modifyLast (· ++ ending) := by
  have hne := h.ne_nil
  obtain ⟨before, last, hnames, hlast⟩ := h.ends
  have hlonger := hlast.append hlong hslash
  have hall : names (path ++ ending) = before ++ [last ++ ending] := by
    rw [names_append path hslash, hnames, List.modifyLast_concat]
  refine ⟨⟨?_, ?_, before, last ++ ending, hall, hlonger⟩, ?_⟩
  · obtain ⟨c, path, rfl⟩ := List.exists_cons_of_ne_nil hne
    exact h.relative
  · rw [hall, List.mem_append, List.mem_singleton, not_or]
    refine ⟨fun hmem => h.noUp ?_, hlonger.ne_up.symm⟩
    rw [hnames]
    exact List.mem_append_left [last] hmem
  · rw [ownNames_eq hall hlonger, ownNames_eq hnames hlast, List.modifyLast_concat]

end Descends

end Path

section
variable {fs : Files} {out path : Text}

/-- The document for such a path goes below the directory, under the names of the path. -/
theorem Path.Descends.outputPath_eq (h : Path.Descends path) (out : Text) (packed : Bool) :
    ∃ file, outputPath out path packed = Path.join out file ∧ Path.Descends file ∧
      Path.ownNames file = outputNames packed (Path.ownNames path) := by
  unfold outputPath outputNames
  cases packed with
  | false => exact ⟨path, rfl, h, rfl⟩
  | true =>
    obtain ⟨hfile, hnames⟩ := h.append (show 2 < Fixture.packedSuffix.length by decide) (by decide)
    refine ⟨path ++ Fixture.packedSuffix, ?_, hfile, hnames⟩
    dsimp only
    rw [if_pos rfl, Path.join, Path.join, h.relative, hfile.relative, if_neg Bool.false_ne_true,
      if_neg Bool.false_ne_true]
    split
    · exact List.append_assoc ..
    · exact List.append_assoc ..

theorem Files.aim_join_of_descends (fs : Files) (out : Text) (h : Path.Descends path) :
    fs.aim (Path.join out path) = fs.aim out ++ Path.ownNames path := by
  rw [aim_join fs out h.relative, h.walk_names]

theorem Files.aim_outputPath_of_descends (fs : Files) (out : Text) (packed : Bool) (h : Path.Descends path) :
    fs.aim (outputPath out path packed) = fs.aim out ++ outputNames packed (Path.ownNames path) := by
  obtain ⟨file, hfile, hdescends, hnames⟩ := h.outputPath_eq out packed
  rw [hfile, aim_join_of_descends fs out hdescends, hnames]

theorem Files.open_of_find? {e : FileEntry} (h : fs.find? path = some e) :
    fs.Open path ∧ fs.tree.find? (fs.aim path) = some e := by
  unfold Files.find? at h
  split at h
  · rename_i p hloc
    obtain ⟨-, hopen, rfl⟩ := Files.locate_eq_ok hloc
    exact ⟨hopen, h⟩
  · cases h

theorem Files.contents_of_find? {text : Text} {packed : Bool} (h : fs.find? path = some (.file text packed)) :
    fs.contents path = .ok (text, packed) := by
  unfold Files.find? at h
  unfold Files.contents
  split at h
  · rename_i p hloc
    rw [hloc, ok_bind, h]
    rfl
  · cases h

/-- A path that leads to a file ends in a name. -/
theorem Files.ends_of_open (hs : fs.Sound) (hopen : fs.Open path)
    (hfind : fs.tree.find? (fs.aim path) ≠ some .directory) :
    ∃ before last, Path.names path = before ++ [last] ∧ Path.IsName last := by
  obtain ⟨before, last, hnames⟩ : ∃ before last, Path.names path = before ++ [last] :=
    ⟨_, _, (List.dropLast_concat_getLast (Path.names_ne_nil path)).symm⟩
  have hmem : last ∈ Path.names path := hnames ▸ List.mem_append_right before (List.mem_singleton_self last)
  rw [Open, hnames, FileTree.open_append] at hopen
  obtain ⟨-, hdirectory, -⟩ := hopen
  rw [aim, hnames, Place.walk_append] at hfind
  change fs.tree.find? (((fs.start path).walk before).step last) ≠ _ at hfind
  refine ⟨before, last, hnames, ?_, ?_, Path.slash_not_mem_of_mem_names hmem⟩
  · by_contra hcounts
    rw [Bool.not_eq_true] at hcounts
    rw [Place.step, hcounts, Bool.not_false, if_pos rfl] at hfind
    exact hfind hdirectory
  · rintro rfl
    exact hfind (hs.tree.directory_of_dropLast hdirectory)

/-- On the way of a path below a directory one comes through the directory. -/
theorem Files.open_of_open_join (h : Path.isAbsolute path = false) (hopen : fs.Open (Path.join out path)) :
    fs.Open out ∧ fs.tree.find? (fs.aim out) = some .directory := by
  obtain ⟨before, hjoin, hnames⟩ := Path.names_join out h
  rw [Open, start_join fs out h, hjoin, FileTree.open_append] at hopen
  obtain ⟨hbefore, hafter⟩ := hopen
  have hdirectory : fs.tree.find? ((fs.start out).walk before) = some .directory := by
    obtain ⟨first, others, hfirst⟩ := List.exists_cons_of_ne_nil (Path.names_ne_nil path)
    rw [hfirst] at hafter
    exact hafter.1
  rw [Open, aim]
  rcases hnames with hnames | hnames
  · rw [hnames]
    exact ⟨hbefore, hdirectory⟩
  · rw [hnames, FileTree.open_append, Place.walk_append, Place.walk_empty]
    exact ⟨⟨hbefore, hdirectory, trivial⟩, hdirectory⟩

/-- A document is got to where something lies in its place, if the directory that it goes to is got to. -/
theorem Files.open_outputPath (hs : fs.Sound) (h : Path.Descends path) (hout : fs.Open out) {packed : Bool}
    {e : FileEntry} (hfind : fs.tree.find? (fs.aim (outputPath out path packed)) = some e) :
    fs.Open (outputPath out path packed) := by
  obtain ⟨file, hfile, hdescends, -⟩ := h.outputPath_eq out packed
  rw [hfile, aim_join_of_descends fs out hdescends] at hfind
  rw [hfile]
  exact open_join hdescends.relative hout (hdescends.open_of_find? hs.tree hfind)

end

end CallTrace
