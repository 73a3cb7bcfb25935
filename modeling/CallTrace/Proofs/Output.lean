import CallTrace.Output
import CallTrace.Proofs.Files

namespace CallTrace
open Attempt

namespace Files

variable {fs : Files} {path : Text}

/-- The directories that are made for a file are on the way to it. -/
theorem onWay_of_mem_way {directory : Text} (h : directory ∈ way (Path.dirname path)) :
    fs.OnWay path (fs.aim directory) := by
  obtain ⟨ns, hns, rfl⟩ := List.mem_map.1 h
  obtain ⟨hns, hlast⟩ := List.mem_filter.1 hns
  obtain ⟨k, hk, rfl⟩ := List.mem_map.1 hns
  have hne : (Path.names (Path.dirname path)).take k ≠ [] := by
    have hk := List.mem_range'_1.1 hk
    rw [Ne, List.take_eq_nil_iff, not_or]
    exact ⟨by omega, Path.names_ne_nil _⟩
  have hlast : ((Path.names (Path.dirname path)).take k).getLast? ≠ some [] := of_decide_eq_true hlast
  have hnames : Path.names (Path.ofNames ((Path.names (Path.dirname path)).take k)) =
      (Path.names (Path.dirname path)).take k :=
    Path.names_ofNames (fun name hname => Path.slash_not_mem_of_mem_names (List.mem_of_mem_take hname)) hne
  have hprefix : (Path.names (Path.dirname path)).take k <+: Path.names path := by
    rcases Path.dirname_spec path with hempty | ⟨rest, hrest⟩
    · -- Were there slashes alone, the last name would be empty.
      refine absurd ?_ hlast
      rw [List.getLast?_eq_some_getLast hne, hempty _ (List.mem_of_mem_take (List.getLast_mem hne))]
    · refine (List.take_prefix k _).trans ⟨Path.names rest, ?_⟩
      conv_rhs => rw [hrest, Path.names_slash]
  have habsolute : Path.isAbsolute (Path.ofNames ((Path.names (Path.dirname path)).take k)) =
      Path.isAbsolute path := by
    rw [← hnames] at hprefix hlast
    exact Path.isAbsolute_eq_of_prefix hprefix (by rwa [hnames] at hlast ⊢)
  refine ⟨_, hprefix, ?_⟩
  rw [aim, hnames, start, start, habsolute]

end Files

def outputNames (packed : Bool) (ns : List Text) : List Text :=
  if packed then ns.modifyLast (· ++ Fixture.packedSuffix) else ns

section
variable {ns : List Text}

theorem leadDown_outputNames (packed : Bool) (h : Path.LeadDown ns) : Path.LeadDown (outputNames packed ns) := by
  unfold outputNames
  split
  · exact h.modifyLast fun name hname => hname.append (by decide) (by decide)
  · exact h

theorem outputNames_injective (packed : Bool) {ns' : List Text} (h : ns ≠ []) (h' : ns' ≠ [])
    (he : outputNames packed ns = outputNames packed ns') : ns = ns' := by
  unfold outputNames at he
  split at he
  · obtain ⟨before, last, rfl⟩ : ∃ before last, ns = before ++ [last] :=
      ⟨_, _, (List.dropLast_concat_getLast h).symm⟩
    obtain ⟨before', last', rfl⟩ : ∃ before last, ns' = before ++ [last] :=
      ⟨_, _, (List.dropLast_concat_getLast h').symm⟩
    rw [List.modifyLast_concat, List.modifyLast_concat] at he
    obtain ⟨rfl, hlast⟩ := List.append_inj' he rfl
    rw [List.append_cancel_right (List.cons.inj hlast).1]
  · exact he

theorem outputPath_ofNames (out : Text) (packed : Bool) (h : Path.LeadDown ns) :
    outputPath out (Path.ofNames ns) packed = Path.join out (Path.ofNames (outputNames packed ns)) := by
  unfold outputPath outputNames
  cases packed with
  | false => rfl
  | true =>
    have habsolute := h.isAbsolute_eq_false
    have habsolute' := (h.modifyLast (f := (· ++ Fixture.packedSuffix)) fun name hname =>
      hname.append (by decide) (by decide)).isAbsolute_eq_false
    dsimp only
    rw [if_pos rfl, if_pos rfl, ← Path.ofNames_append ns h.ne_nil] at *
    rw [Path.join, Path.join, habsolute, habsolute']
    rw [if_neg Bool.false_ne_true, if_neg Bool.false_ne_true]
    split
    · exact List.append_assoc ..
    · exact List.append_assoc ..

/-- The document for a file goes to the place in the other directory that the file has in its own, apart from
the suffix. -/
theorem Files.aim_outputPath (fs : Files) (out : Text) (packed : Bool) (h : Path.LeadDown ns) :
    fs.aim (outputPath out (Path.ofNames ns) packed) = fs.aim out ++ outputNames packed ns := by
  have houtput := leadDown_outputNames packed h
  rw [outputPath_ofNames out packed h, aim_join fs out houtput.isAbsolute_eq_false, houtput.names_ofNames,
    Place.walk_of_isName _ houtput.isName]

end

namespace Output

variable {o : Output} {fs : Files} {text : Text}

theorem session_single (o : Output) (fs : Files) (text : Text) :
    (o.session fs [text]).result = (o.write fs text).result.map ([·]) ∧
      (o.session fs [text]).files = (o.write fs text).files := by
  unfold session writeAll
  dsimp only
  cases (o.write fs text).result with
  | error f => exact ⟨rfl, rfl⟩
  | ok n => exact ⟨rfl, rfl⟩

/-- Once a file has been opened, it is there and empty. -/
theorem opened_spec (hs : fs.Sound) (hclosed : o.isOpen = false) :
    (∃ f, (o.opened fs).result = .error f ∧
      Files.Grown (fs.OnWay o.path) (fun _ _ => False) fs (o.opened fs).files) ∨
    ∃ fs', Files.Grown (fs.OnWay o.path) (fun _ _ => False) fs fs' ∧ fs'.locate o.path = .ok (fs.aim o.path) ∧
      fs'.tree.find? (fs.aim o.path) ≠ some .directory ∧
      o.opened fs = ⟨.ok (), { o with isOpen := true },
        { fs' with tree := fs'.tree.put (fs.aim o.path) (.file [] o.packed) }⟩ := by
  have hway := (Files.grown_ensureWay hs (Files.way (Path.dirname o.path))).mono
    (fun p ⟨directory, hdirectory, hp⟩ => hp ▸ Files.onWay_of_mem_way hdirectory) fun _ _ h => h
  unfold opened
  rw [hclosed, if_neg Bool.false_ne_true]
  generalize hmade : fs.ensureWay (Files.way (Path.dirname o.path)) = made at hway ⊢
  obtain ⟨made, fs'⟩ := made
  dsimp only
  cases made with
  | error f => exact .inl ⟨f, rfl, hway⟩
  | ok _ =>
    cases hwrite : fs'.write o.path [] o.packed with
    | error f => exact .inl ⟨f, rfl, hway⟩
    | ok fs'' =>
      obtain ⟨p, hloc, hput⟩ := bind_eq_ok.1 hwrite
      obtain ⟨-, -, rfl⟩ := Files.locate_eq_ok hloc
      have haim : fs'.aim o.path = fs.aim o.path := Files.aim_eq hway.here o.path
      rw [haim] at hloc hput
      refine .inr ⟨fs', hway, hloc, ?_⟩
      split at hput
      · cases hput
      · rename_i hfind
        obtain rfl := Except.ok.inj hput
        exact ⟨hfind, rfl⟩

/-- What is added to an empty file is all of what it holds. -/
theorem added_empty (hs : fs.Sound) (htext : text.utf8?.isSome = true)
    (hloc : fs.locate o.path = .ok (fs.aim o.path)) (hfind : fs.tree.find? (fs.aim o.path) ≠ some .directory) :
    added o { fs with tree := fs.tree.put (fs.aim o.path) (.file [] o.packed) } text =
      .ok { fs with tree := fs.tree.put (fs.aim o.path) (.file text o.packed) } := by
  obtain ⟨-, hopen, -⟩ := Files.locate_eq_ok hloc
  have hempty : Files.Grown (fun _ => False) (fun _ _ => True) fs
      { fs with tree := fs.tree.put (fs.aim o.path) (.file [] o.packed) } :=
    Files.grown_put hs hopen hfind (.inr trivial)
  have hnone : text.utf8?.isNone = false := by
    rwa [← Bool.not_eq_true', Option.not_isNone]
  unfold added Files.contents Files.write
  rw [hnone, hempty.locate_of_ok hloc]
  simp only [ok_bind, pure_eq, FileTree.find?_put_self _ (FileTree.ne_nil_of_find? hfind), FileTree.put_put,
    List.nil_append]
  rfl

/-- A text that can be written is all of what the file holds then, unless it cannot even be opened. -/
theorem session_spec (hs : fs.Sound) (hclosed : o.isOpen = false) (htext : text.utf8?.isSome = true) :
    (∃ f, (o.session fs [text]).result = .error f ∧
      Files.Grown (fs.OnWay o.path) (fun _ _ => False) fs (o.session fs [text]).files) ∨
    ((o.session fs [text]).result = .ok [text.length] ∧
      (o.session fs [text]).files.locate o.path = .ok (fs.aim o.path) ∧
      (o.session fs [text]).files.tree.find? (fs.aim o.path) = some (.file text o.packed) ∧
      Files.Grown (fs.OnWay o.path) (fun p e => p = fs.aim o.path ∧ e = .file text o.packed) fs
        (o.session fs [text]).files) := by
  obtain ⟨hresult, hfiles⟩ := session_single o fs text
  rw [hresult, hfiles]
  unfold write
  rcases opened_spec hs hclosed with ⟨f, hf, hgrown⟩ | ⟨fs', hgrown, hloc, hfind, hopened⟩
  · left
    dsimp only
    rw [hf]
    exact ⟨f, rfl, hgrown⟩
  · right
    have hs' := hgrown.sound hs
    have haim : fs.aim o.path = fs'.aim o.path := (Files.aim_eq hgrown.here o.path).symm
    rw [haim] at hloc hfind ⊢
    obtain ⟨-, hopen, -⟩ := Files.locate_eq_ok hloc
    have hadded := added_empty (o := { o with isOpen := true }) hs' htext hloc hfind
    dsimp only at hadded ⊢
    rw [hopened, haim]
    dsimp only
    rw [hadded]
    have hput : Files.Grown (fs.OnWay o.path) (fun p e => p = fs'.aim o.path ∧ e = .file text o.packed) fs'
        { fs' with tree := fs'.tree.put (fs'.aim o.path) (.file text o.packed) } :=
      Files.grown_put hs' hopen hfind (.inr ⟨rfl, rfl⟩)
    exact ⟨rfl, hput.locate_of_ok hloc, FileTree.find?_put_self _ (FileTree.ne_nil_of_find? hfind) _,
      (hgrown.mono (fun _ h => h) fun _ _ h => h.elim).trans hput⟩

/-- Only a text that has octets can be written. -/
theorem isSome_utf8?_of_session {n : List Nat} (h : (o.session fs [text]).result = .ok n) :
    text.utf8?.isSome = true := by
  rw [(session_single o fs text).1] at h
  obtain ⟨_, h, -⟩ := map_eq_ok.1 h
  unfold write at h
  dsimp only at h
  split at h
  · cases h
  · split at h
    · cases h
    · rename_i hadded
      unfold added at hadded
      cases htext : text.utf8? with
      | some _ => rfl
      | none =>
        rw [htext] at hadded
        cases hadded

theorem sound_session (hs : fs.Sound) (hclosed : o.isOpen = false) {n : List Nat}
    (h : (o.session fs [text]).result = .ok n) : (o.session fs [text]).files.Sound := by
  rcases session_spec hs hclosed (isSome_utf8?_of_session h) with ⟨-, -, hgrown⟩ | ⟨-, -, -, hgrown⟩
  · exact hgrown.sound hs
  · exact hgrown.sound hs

end Output

end CallTrace
