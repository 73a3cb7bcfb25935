import CallTrace.Fixture
import CallTrace.Proofs.Files
import Mathlib.Data.List.Nodup

namespace CallTrace
open Attempt

namespace Text

theorem atMost_total (s t : Text) : (atMost s t || atMost t s) = true := by
  induction s generalizing t with
  | nil => rfl
  | cons c s ih =>
    cases t with
    | nil => rfl
    | cons d t =>
      have hrest := ih t
      rcases Nat.lt_trichotomy c.toNat d.toNat with h | h | h
      · simp [atMost, h]
      · obtain rfl := CodePoint.toNat_injective h
        simpa [atMost] using hrest
      · simp [atMost, h]

theorem atMost_trans (s t u : Text) (h : atMost s t = true) (h' : atMost t u = true) : atMost s u = true := by
  induction s generalizing t u with
  | nil => rfl
  | cons c s ih =>
    cases t with
    | nil => cases h
    | cons d t =>
      cases u with
      | nil => cases h'
      | cons e u =>
        simp only [atMost, Bool.or_eq_true, Bool.and_eq_true, decide_eq_true_eq] at h h' ⊢
        rcases h with h | ⟨rfl, h⟩
        · rcases h' with h' | ⟨rfl, -⟩
          · exact .inl (h.trans h')
          · exact .inl h
        · exact h'.imp_right (And.imp_right (ih t u h))

theorem atMost_antisymm {s t : Text} (h : atMost s t = true) (h' : atMost t s = true) : s = t := by
  induction s generalizing t with
  | nil =>
    cases t with
    | nil => rfl
    | cons d t => cases h'
  | cons c s ih =>
    cases t with
    | nil => cases h
    | cons d t =>
      simp only [atMost, Bool.or_eq_true, Bool.and_eq_true, decide_eq_true_eq] at h h'
      rcases h with h | ⟨rfl, h⟩
      · rcases h' with h' | ⟨rfl, -⟩ <;> omega
      · rcases h' with h' | ⟨-, h'⟩
        · omega
        · rw [ih h h']

def Before (s t : Text) : Prop := atMost s t = true ∧ s ≠ t

end Text

namespace FileTree

variable {t : FileTree} {p : Place}

theorem mem_below {ns : List Text} {e : FileEntry} :
    (ns, e) ∈ t.below p ↔ ns ≠ [] ∧ (p ++ ns, e) ∈ t.entries := by
  unfold below
  constructor
  · intro h
    obtain ⟨f, hf, he⟩ := List.mem_map.1 h
    obtain ⟨hf, hlong⟩ := List.mem_filter.1 hf
    rw [Bool.and_eq_true, List.isPrefixOf_iff_prefix, decide_eq_true_eq] at hlong
    obtain ⟨⟨more, hmore⟩, hlength⟩ := hlong
    obtain ⟨hdrop, rfl⟩ := Prod.mk.inj he
    rw [← hmore, List.drop_left] at hdrop
    subst hdrop
    refine ⟨?_, hmore ▸ hf⟩
    rintro rfl
    rw [← hmore, List.append_nil] at hlength
    exact Nat.lt_irrefl _ hlength
  · rintro ⟨hne, hmem⟩
    refine List.mem_map.2 ⟨(p ++ ns, e), List.mem_filter.2 ⟨hmem, ?_⟩, by rw [List.drop_left]⟩
    rw [Bool.and_eq_true, List.isPrefixOf_iff_prefix, decide_eq_true_eq, List.length_append]
    exact ⟨List.prefix_append p ns, Nat.lt_add_of_pos_right (List.length_pos_iff.2 hne)⟩

theorem Sound.mem_below_iff (h : t.Sound) {ns : List Text} {e : FileEntry} :
    (ns, e) ∈ t.below p ↔ ns ≠ [] ∧ t.find? (p ++ ns) = some e := by
  rw [mem_below, h.mem_entries_iff]
  exact and_congr_right fun hne => and_iff_right (List.append_ne_nil_of_right_ne_nil p hne)

theorem Sound.pairwise_below (h : t.Sound) : (t.below p).Pairwise fun a b => a.1 ≠ b.1 := by
  unfold below
  rw [List.pairwise_map]
  have hentries : t.entries.Pairwise fun a b => a.1 ≠ b.1 := List.pairwise_map.1 h.nodup
  refine (hentries.filter _).imp_of_mem fun {a b} ha hb hne he => hne ?_
  have hsplit : ∀ f ∈ t.entries.filter (fun e => p.isPrefixOf e.1 && p.length < e.1.length),
      f.1 = p ++ f.1.drop p.length := by
    intro f hf
    have hlong := (List.mem_filter.1 hf).2
    rw [Bool.and_eq_true, List.isPrefixOf_iff_prefix] at hlong
    exact (List.prefix_iff_eq_append.1 hlong.1).symm
  rw [hsplit a ha, hsplit b hb]
  exact congrArg (p ++ ·) he

/-- What lies below a place is a tree of its own. -/
theorem Sound.sound_below (h : t.Sound) (p : Place) : (FileTree.mk (t.below p)).Sound := by
  have hnodup : ((t.below p).map Prod.fst).Nodup := List.pairwise_map.2 h.pairwise_below
  refine ⟨hnodup, fun ns hns => ?_⟩
  obtain ⟨⟨_, e⟩, hmem, rfl⟩ := List.mem_map.1 hns
  obtain ⟨hne, hfind⟩ := h.mem_below_iff.1 hmem
  obtain ⟨-, -, hdown⟩ := h.open_of_find? hne hfind
  obtain ⟨d, name, rfl⟩ : ∃ d name, _ = d ++ [name] := ⟨_, _, (List.dropLast_concat_getLast hne).symm⟩
  refine ⟨d, name, rfl, hdown.isName name (by simp), ?_⟩
  have hdir := h.directory_of_dropLast hfind
  rw [← List.append_assoc, List.dropLast_concat] at hdir
  cases d with
  | nil => rfl
  | cons first d =>
    rw [find?_of_ne_nil _ (List.cons_ne_nil first d)]
    exact lookup_of_mem hnodup (h.mem_below_iff.2 ⟨List.cons_ne_nil first d, hdir⟩)

end FileTree

theorem Files.isDirectory_iff {fs : Files} {directory : Text} : fs.isDirectory directory = true ↔
    fs.locate directory = .ok (fs.aim directory) ∧ fs.tree.find? (fs.aim directory) = some .directory := by
  unfold Files.isDirectory Files.find?
  rw [decide_eq_true_eq]
  cases hloc : fs.locate directory with
  | error f => simp
  | ok p =>
    obtain ⟨-, -, rfl⟩ := Files.locate_eq_ok hloc
    simp

namespace Fixture

variable {fs fs' : Files} {directory path : Text}

def LiesBelow (fs : Files) (directory path : Text) : Prop :=
  ∃ ns text packed, Path.LeadDown ns ∧ path = Path.ofNames ns ∧
    fs.tree.find? (fs.aim directory ++ ns) = some (.file text packed)

def pathOf? : Place × FileEntry → Option Text
  | (ns, .file ..) => some (Path.ofNames ns)
  | (_, .directory) => none

theorem filesBelow_eq (hdir : fs.isDirectory directory = true) :
    filesBelow fs directory = .ok ((fs.tree.below (fs.aim directory)).filterMap pathOf?) := by
  obtain ⟨hloc, hfind⟩ := Files.isDirectory_iff.1 hdir
  obtain ⟨bs, hbs, -⟩ := bind_eq_ok.1 hloc
  unfold filesBelow
  rw [hbs, ok_bind, hloc]
  dsimp only
  rw [hfind]
  refine congrArg Except.ok (List.filterMap_congr fun e _ => ?_)
  obtain ⟨ns, e⟩ := e
  cases e <;> rfl

theorem mem_filesBelow (hs : fs.Sound) {paths : List Text} (hdir : fs.isDirectory directory = true)
    (h : filesBelow fs directory = .ok paths) : path ∈ paths ↔ LiesBelow fs directory path := by
  rw [filesBelow_eq hdir] at h
  obtain rfl := Except.ok.inj h
  rw [List.mem_filterMap]
  constructor
  · rintro ⟨⟨ns, e⟩, he, hpath⟩
    obtain ⟨hne, hfind⟩ := hs.tree.mem_below_iff.1 he
    obtain ⟨-, -, hdown⟩ := hs.tree.open_of_find? hne hfind
    cases e with
    | directory => cases hpath
    | file text packed => exact ⟨ns, text, packed, hdown, (Option.some.inj hpath).symm, hfind⟩
  · rintro ⟨ns, text, packed, hdown, rfl, hfind⟩
    exact ⟨(ns, .file text packed), hs.tree.mem_below_iff.2 ⟨hdown.ne_nil, hfind⟩, rfl⟩

theorem nodup_filesBelow (hs : fs.Sound) {paths : List Text} (hdir : fs.isDirectory directory = true)
    (h : filesBelow fs directory = .ok paths) : paths.Nodup := by
  rw [filesBelow_eq hdir] at h
  obtain rfl := Except.ok.inj h
  refine List.pairwise_filterMap.2 (hs.tree.pairwise_below.imp_of_mem ?_)
  intro a b ha hb hne path hpath path' hpath'
  have hnames : ∀ e ∈ fs.tree.below (fs.aim directory), ∀ path, pathOf? e = some path → Path.names path = e.1 := by
    rintro ⟨ns, e⟩ he path hpath
    obtain ⟨hns, hfind⟩ := hs.tree.mem_below_iff.1 he
    obtain ⟨-, -, hdown⟩ := hs.tree.open_of_find? hns hfind
    cases e with
    | directory => cases hpath
    | file text packed => rw [← Option.some.inj hpath, hdown.names_ofNames]
  rintro rfl
  exact hne (by rw [← hnames a ha path hpath, ← hnames b hb path hpath'])

/-- What is found is found once and in order, and it is what lies there and is selected. -/
theorem find_spec (hs : fs.Sound) (hdir : fs.isDirectory directory = true) (includes excludes : GlobSet) :
    ∃ paths, find fs directory includes excludes = .ok paths ∧ paths.Pairwise Text.Before ∧
      ∀ path, path ∈ paths ↔ LiesBelow fs directory path ∧ isSelected includes excludes path = true := by
  have hbelow := filesBelow_eq hdir
  refine ⟨_, by rw [find, hbelow]; rfl, ?_, fun path => ?_⟩
  · have hsorted := List.pairwise_mergeSort Text.atMost_trans Text.atMost_total
      ((fs.tree.below (fs.aim directory)).filterMap pathOf?)
    have hnodup := (List.mergeSort_perm _ Text.atMost).nodup_iff.2 (nodup_filesBelow hs hdir hbelow)
    exact (hsorted.and hnodup).filter _
  · rw [List.mem_filter, Text.sorted, (List.mergeSort_perm _ Text.atMost).mem_iff, mem_filesBelow hs hdir hbelow]

/-- Whatever sorts the files that are selected, they are found in that order. -/
theorem find_of_perm {files paths : List Text} {includes excludes : GlobSet}
    (hbelow : filesBelow fs directory = .ok files)
    (hsorted : paths.Pairwise fun s t => Text.atMost s t = true)
    (hperm : paths.Perm (files.filter (isSelected includes excludes))) :
    find fs directory includes excludes = .ok paths := by
  have hfiles := List.pairwise_mergeSort Text.atMost_trans Text.atMost_total files
  have hfound : ((Text.sorted files).filter (isSelected includes excludes)).Perm paths :=
    ((List.mergeSort_perm files Text.atMost).filter _).trans hperm.symm
  rw [find, hbelow]
  refine congrArg Except.ok (hfound.eq_of_pairwise (fun s t _ _ => Text.atMost_antisymm) ?_ hsorted)
  exact hfiles.filter _

/-- A file that lies below a directory can be got to as far as directories go. -/
theorem LiesBelow.open_join (hs : fs.Sound) (hdir : fs.isDirectory directory = true)
    (h : LiesBelow fs directory path) :
    fs.Open (Path.join directory path) ∧ fs.aim directory <+: fs.aim (Path.join directory path) ∧
      ∃ text packed, fs.tree.find? (fs.aim (Path.join directory path)) = some (.file text packed) := by
  obtain ⟨ns, text, packed, hdown, rfl, hfind⟩ := h
  obtain ⟨hloc, -⟩ := Files.isDirectory_iff.1 hdir
  obtain ⟨-, hopen, -⟩ := Files.locate_eq_ok hloc
  obtain ⟨-, hbelow, -⟩ := hs.tree.open_of_find? hdown.ne_nil hfind
  have haim : fs.aim (Path.join directory (Path.ofNames ns)) = fs.aim directory ++ ns := by
    rw [Files.aim_join fs directory hdown.isAbsolute_eq_false, hdown.names_ofNames,
      Place.walk_of_isName _ hdown.isName]
  refine ⟨Files.open_join hdown.isAbsolute_eq_false hopen ?_, ?_, text, packed, ?_⟩
  · rwa [hdown.names_ofNames]
  · rw [haim]
    exact List.prefix_append _ ns
  · rw [haim, hfind]

section
variable {made : Place → Prop} {put : Place → FileEntry → Prop}

def Spares (put : Place → FileEntry → Prop) (p : Place) : Prop := ∀ q e, put q e → ¬ p <+: q

theorem isDirectory_of_grown (h : Files.Grown made put fs fs') (hdir : fs.isDirectory directory = true) :
    fs'.isDirectory directory = true := by
  obtain ⟨hloc, hfind⟩ := Files.isDirectory_iff.1 hdir
  rw [Files.isDirectory_iff, Files.aim_eq h.here]
  exact ⟨h.locate_of_ok hloc, h.directory _ hfind⟩

theorem contents_of_grown (h : Files.Grown made put fs fs') (hs : fs.Sound)
    (hdir : fs.isDirectory directory = true) (hput : Spares put (fs.aim directory))
    (hpath : LiesBelow fs directory path) :
    fs'.contents (Path.join directory path) = fs.contents (Path.join directory path) := by
  obtain ⟨hopen, hbelow, text, packed, hfind⟩ := hpath.open_join hs hdir
  exact h.contents_eq hopen hfind fun e he => hput _ e he hbelow

theorem liesBelow_of_grown (h : Files.Grown made put fs fs') (hput : Spares put (fs.aim directory)) :
    LiesBelow fs' directory path ↔ LiesBelow fs directory path := by
  unfold LiesBelow
  rw [Files.aim_eq h.here]
  refine exists_congr fun ns => exists_congr fun text => exists_congr fun packed =>
    and_congr_right fun _ => and_congr_right fun _ => ⟨fun hfind => ?_, fun hfind => ?_⟩
  · rcases h.find? (fs.aim directory ++ ns) with hsame | ⟨-, hmade, -⟩ | ⟨e, -, he⟩
    · rwa [hsame] at hfind
    · rw [hmade] at hfind
      cases hfind
    · exact absurd (List.prefix_append _ ns) (hput _ e he)
  · exact h.find?_of_some hfind fun e he => hput _ e he (List.prefix_append _ ns)

/-- A file that could be read still holds what it held, unless something was put in its place. -/
theorem readPlain_of_grown (h : Files.Grown made put fs fs') (hput : ∀ p e, put p e → fs.tree.find? p = none)
    {text : Text} (hread : fs.readPlain path = .ok text) : fs'.readPlain path = .ok text := by
  obtain ⟨held, hcontents, -⟩ := bind_eq_ok.1 hread
  obtain ⟨p, hloc, hfind⟩ := bind_eq_ok.1 hcontents
  obtain ⟨-, hopen, rfl⟩ := Files.locate_eq_ok hloc
  have hsame : fs'.contents path = fs.contents path := by
    cases hfile : fs.tree.find? (fs.aim path) with
    | none =>
      rw [hfile] at hfind
      cases hfind
    | some e =>
      refine h.contents_eq hopen hfile fun e' he' => ?_
      rw [hput _ e' he'] at hfile
      cases hfile
  rw [← hread, Files.readPlain, Files.readPlain, hsame]

theorem loadGlobs_of_grown (h : Files.Grown made put fs fs') (hput : ∀ p e, put p e → fs.tree.find? p = none)
    {source : Option Text} {default globs : GlobSet} (hload : loadGlobs fs source default = .ok globs) :
    loadGlobs fs' source default = .ok globs := by
  cases source with
  | none => exact hload
  | some source =>
    obtain ⟨text, htext, rfl⟩ := map_eq_ok.1 hload
    rw [loadGlobs, readPlain_of_grown h hput htext, map_ok]

end

theorem eq_of_pairwise_before {paths paths' : List Text} (h : paths.Pairwise Text.Before)
    (h' : paths'.Pairwise Text.Before) (hmem : ∀ path, path ∈ paths ↔ path ∈ paths') : paths = paths' := by
  have hnodup : paths.Nodup := h.imp fun hb => hb.2
  have hnodup' : paths'.Nodup := h'.imp fun hb => hb.2
  have hsorted : paths.Pairwise fun s t => Text.atMost s t = true := h.imp fun hb => hb.1
  have hsorted' : paths'.Pairwise fun s t => Text.atMost s t = true := h'.imp fun hb => hb.1
  have hperm := (List.perm_ext_iff_of_nodup hnodup hnodup').2 hmem
  exact hperm.eq_of_pairwise (fun s t _ _ => Text.atMost_antisymm) hsorted hsorted'

/-- The same fixtures are found, whatever comes elsewhere. -/
theorem find_of_grown {made : Place → Prop} {put : Place → FileEntry → Prop}
    (h : Files.Grown made put fs fs') (hs : fs.Sound) (hdir : fs.isDirectory directory = true)
    (hput : Spares put (fs.aim directory)) (includes excludes : GlobSet) :
    find fs' directory includes excludes = find fs directory includes excludes := by
  obtain ⟨paths, hpaths, hsorted, hmem⟩ := find_spec hs hdir includes excludes
  obtain ⟨paths', hpaths', hsorted', hmem'⟩ :=
    find_spec (h.sound hs) (isDirectory_of_grown h hdir) includes excludes
  rw [hpaths, hpaths', eq_of_pairwise_before hsorted' hsorted fun path => ?_]
  rw [hmem, hmem', liesBelow_of_grown h hput]

end Fixture

end CallTrace
