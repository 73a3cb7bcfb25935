import CallTrace.Path
import Mathlib.Data.List.DropRight
import Mathlib.Data.List.ModifyLast

namespace CallTrace.Path

structure IsName (name : Text) : Prop where
  counts : counts name = true
  ne_up : name ≠ ".."
  noSlash : (.char '/' : CodePoint) ∉ name

instance (name : Text) : Decidable (IsName name) :=
  decidable_of_iff (_ ∧ _ ∧ _) ⟨fun ⟨h, h', h''⟩ => ⟨h, h', h''⟩, fun h => ⟨h.counts, h.ne_up, h.noSlash⟩⟩

theorem IsName.ne_nil {name : Text} (h : IsName name) : name ≠ [] := by
  rintro rfl
  exact absurd h.counts (by decide)

/-- Such a name remains one with letters behind it. -/
theorem IsName.append {name ending : Text} (h : IsName name) (hlong : 2 < ending.length)
    (hslash : (.char '/' : CodePoint) ∉ ending) : IsName (name ++ ending) := by
  have hlength : 2 < (name ++ ending).length := by
    rw [List.length_append]
    omega
  have hother : ∀ short : Text, short.length ≤ 2 → name ++ ending ≠ short := by
    intro short hshort he
    rw [he] at hlength
    omega
  refine ⟨?_, hother _ (by decide), ?_⟩
  · show (decide _ && decide _) = true
    rw [Bool.and_eq_true, decide_eq_true_eq, decide_eq_true_eq]
    exact ⟨hother _ (by decide), hother _ (by decide)⟩
  · rw [List.mem_append, not_or]
    exact ⟨h.noSlash, hslash⟩

theorem names_nil : names [] = [[]] := List.splitOn_nil (.char '/' : CodePoint)

theorem names_ne_nil (path : Text) : names path ≠ [] := List.splitOn_ne_nil (.char '/' : CodePoint) path

theorem names_slash (before after : Text) :
    names (before ++ .char '/' :: after) = names before ++ names after :=
  List.splitOn_append_cons_self before after

theorem ofNames_names (path : Text) : ofNames (names path) = path :=
  List.intercalate_splitOn (.char '/' : CodePoint)

theorem names_ofNames {ns : List Text} (h : ∀ name ∈ ns, (.char '/' : CodePoint) ∉ name) (hne : ns ≠ []) :
    names (ofNames ns) = ns :=
  List.splitOn_intercalate _ h hne

theorem slash_not_mem_of_mem_names {path name : Text} (h : name ∈ names path) :
    (.char '/' : CodePoint) ∉ name := by
  induction path generalizing name with
  | nil =>
    rw [names_nil, List.mem_singleton] at h
    rw [h]
    exact List.not_mem_nil
  | cons c path ih =>
    have hcons : names (c :: path) =
        if c == .char '/' then [] :: names path else (names path).modifyHead (c :: ·) :=
      List.splitOn_cons_eq_if_modifyHead c path
    rw [hcons] at h
    split at h
    · rcases List.mem_cons.1 h with rfl | h
      · exact List.not_mem_nil
      · exact ih h
    · rename_i hc
      cases hnames : names path with
      | nil => exact absurd hnames (names_ne_nil path)
      | cons first others =>
        rw [hnames, List.modifyHead_cons] at h
        rcases List.mem_cons.1 h with rfl | h
        · have hfirst := ih (hnames ▸ List.mem_cons_self)
          rw [List.mem_cons, not_or]
          exact ⟨fun he => hc (by rw [← he]; exact beq_self_eq_true _), hfirst⟩
        · exact ih (hnames ▸ List.mem_cons_of_mem first h)

theorem isAbsolute_iff {path : Text} :
    isAbsolute path = true ↔ ∃ name others, names path = [] :: name :: others := by
  constructor
  · intro h
    obtain ⟨rest, rfl⟩ := List.head?_eq_some_iff.1 (of_decide_eq_true h)
    have hnames : names (.char '/' :: rest) = [] :: names rest := by
      show names ([] ++ .char '/' :: rest) = _
      rw [names_slash, names_nil, List.singleton_append]
    cases hrest : names rest with
    | nil => exact absurd hrest (names_ne_nil rest)
    | cons name others => exact ⟨name, others, by rw [hnames, hrest]⟩
  · rintro ⟨name, others, hnames⟩
    rw [← ofNames_names path, hnames]
    show decide _ = true
    simp [ofNames, Text.join, List.intercalate, Text.ofString, Text.ofChars]

/-- Paths that begin with the same names both start from the top, or neither does. -/
theorem isAbsolute_eq_of_prefix {path path' : Text} (h : names path <+: names path')
    (hlast : (names path).getLast? ≠ some []) : isAbsolute path = isAbsolute path' := by
  obtain ⟨more, hmore⟩ := h
  rw [Bool.eq_iff_iff, isAbsolute_iff, isAbsolute_iff, ← hmore]
  cases hnames : names path with
  | nil => exact absurd hnames (names_ne_nil path)
  | cons first others =>
    cases others with
    | nil =>
      rw [hnames] at hlast
      have hfirst : first ≠ [] := fun he => hlast (congrArg some he)
      simp [hfirst]
    | cons next others => simp

theorem names_of_all_isSlash {path name : Text} (h : path.all isSlash = true) (hname : name ∈ names path) :
    name = [] := by
  induction path with
  | nil =>
    rw [names_nil] at hname
    exact List.mem_singleton.1 hname
  | cons c path ih =>
    rw [List.all_cons, Bool.and_eq_true] at h
    obtain rfl : c = .char '/' := of_decide_eq_true h.1
    change name ∈ names ([] ++ .char '/' :: path) at hname
    rw [names_slash, names_nil, List.singleton_append, List.mem_cons] at hname
    exact hname.elim id (ih h.2)

/-- A directory is named by what stands before a slash, unless slashes are all there is. -/
theorem dirname_spec (path : Text) :
    (∀ name ∈ names (dirname path), name = []) ∨ ∃ rest, path = dirname path ++ .char '/' :: rest := by
  generalize hfront : path.rdropWhile (!isSlash ·) = front
  have hpath : path = front ++ path.rtakeWhile (!isSlash ·) := by
    rw [← hfront, List.rdropWhile_append_rtakeWhile]
  have hdirname : dirname path = dropSlashes front := congrArg dropSlashes hfront
  rw [hdirname, dropSlashes]
  cases hall : front.all isSlash with
  | true => exact .inl fun name hname => names_of_all_isSlash hall hname
  | false =>
    -- The front ends in a slash, so at least that one is dropped.
    have hne : front ≠ [] := by
      rintro rfl
      cases hall
    have hlast : isSlash (front.getLast hne) = true := by
      subst hfront
      simpa using List.rdropWhile_last_not (!isSlash ·) path hne
    have hsplit : front.rdropWhile isSlash ++ front.rtakeWhile isSlash = front :=
      List.rdropWhile_append_rtakeWhile
    right
    cases hslashes : front.rtakeWhile isSlash with
    | nil => exact absurd hlast (List.rtakeWhile_eq_nil_iff.1 hslashes hne)
    | cons c slashes =>
      have hc : isSlash c = true := List.mem_rtakeWhile_imp (hslashes ▸ List.mem_cons_self)
      obtain rfl : c = .char '/' := of_decide_eq_true hc
      rw [hslashes] at hsplit
      refine ⟨slashes ++ path.rtakeWhile (!isSlash ·), ?_⟩
      rw [if_neg Bool.false_ne_true]
      calc path = front ++ path.rtakeWhile (!isSlash ·) := hpath
        _ = front.rdropWhile isSlash ++ .char '/' :: slashes ++ path.rtakeWhile (!isSlash ·) := by rw [hsplit]
        _ = _ := by rw [List.append_assoc]; rfl

structure LeadDown (ns : List Text) : Prop where
  ne_nil : ns ≠ []
  isName : ∀ name ∈ ns, IsName name

namespace LeadDown

variable {ns : List Text}

theorem names_ofNames (h : LeadDown ns) : names (ofNames ns) = ns :=
  Path.names_ofNames (fun name hname => (h.isName name hname).noSlash) h.ne_nil

theorem isAbsolute_eq_false (h : LeadDown ns) : isAbsolute (ofNames ns) = false := by
  rw [isAbsolute, decide_eq_false_iff_not]
  intro hhead
  obtain ⟨rest, hrest⟩ := List.head?_eq_some_iff.1 hhead
  -- In front of a first slash stands an empty name.
  have hempty : [] ∈ ns := by
    rw [← h.names_ofNames, hrest]
    show [] ∈ names ([] ++ .char '/' :: rest)
    rw [names_slash, names_nil]
    exact List.mem_append_left _ (List.mem_singleton_self _)
  exact (h.isName _ hempty).ne_nil rfl

theorem modifyLast (h : LeadDown ns) {f : Text → Text} (hf : ∀ name, IsName name → IsName (f name)) :
    LeadDown (ns.modifyLast f) := by
  obtain ⟨before, last, rfl⟩ : ∃ before last, ns = before ++ [last] :=
    ⟨_, _, (List.dropLast_concat_getLast h.ne_nil).symm⟩
  rw [List.modifyLast_concat]
  refine ⟨by simp, fun name hname => ?_⟩
  rcases List.mem_append.1 hname with hname | hname
  · exact h.isName name (List.mem_append_left _ hname)
  · rw [List.mem_singleton.1 hname]
    exact hf last (h.isName last (List.mem_append_right _ (List.mem_singleton_self last)))

end LeadDown

/-- What stands behind a path stands behind its last name. -/
theorem ofNames_append (ns : List Text) (hne : ns ≠ []) (ending : Text) :
    ofNames ns ++ ending = ofNames (ns.modifyLast (· ++ ending)) := by
  obtain ⟨before, last, rfl⟩ : ∃ before last, ns = before ++ [last] :=
    ⟨_, _, (List.dropLast_concat_getLast hne).symm⟩
  rw [List.modifyLast_concat]
  clear hne
  induction before with
  | nil => simp [ofNames, Text.join, List.intercalate]
  | cons name before ih =>
    have hcons : ∀ l : Text, ofNames (name :: (before ++ [l])) = name ++ ("/" ++ ofNames (before ++ [l])) := by
      intro l
      cases before <;> simp [ofNames, Text.join, List.intercalate]
    rw [List.cons_append, List.cons_append, hcons, hcons, ← ih]
    simp only [List.append_assoc]

theorem isAbsolute_join {directory path : Text} (h : isAbsolute path = false) :
    isAbsolute (join directory path) = isAbsolute directory := by
  unfold join
  rw [h, if_neg Bool.false_ne_true]
  cases directory with
  | nil => exact h
  | cons c directory =>
    split <;> rfl

/-- The names of a path below a directory, up to an empty one after the directory. -/
theorem names_join (directory : Text) {path : Text} (h : isAbsolute path = false) :
    ∃ start, names (join directory path) = start ++ names path ∧
      (names directory = start ∨ names directory = start ++ [[]]) := by
  unfold join
  rw [h, if_neg Bool.false_ne_true]
  cases hempty : directory.isEmpty with
  | true =>
    rw [List.isEmpty_iff.1 hempty]
    exact ⟨[], rfl, .inr names_nil⟩
  | false =>
    cases hslash : endsInSlash directory with
    | true =>
      obtain ⟨start, rfl⟩ := List.getLast?_eq_some_iff.1 (of_decide_eq_true hslash)
      refine ⟨names start, ?_, .inr ?_⟩
      · rw [Bool.or_true, if_pos rfl, List.append_assoc, List.singleton_append, names_slash]
      · rw [names_slash, names_nil]
    | false =>
      refine ⟨names directory, ?_, .inl rfl⟩
      rw [Bool.or_self, if_neg Bool.false_ne_true, List.append_assoc]
      exact names_slash directory path

end CallTrace.Path
