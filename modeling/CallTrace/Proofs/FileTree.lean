import CallTrace.FileTree
import CallTrace.Proofs.Attempt
import CallTrace.Proofs.Lookup
import CallTrace.Proofs.Path

namespace CallTrace
open Attempt

namespace Place

def step (p : Place) (name : Text) : Place :=
  if !Path.counts name then p else if name = ".." then p.dropLast else p ++ [name]

def walk (p : Place) (names : List Text) : Place := names.foldl step p

theorem walk_append (p : Place) (before after : List Text) :
    p.walk (before ++ after) = (p.walk before).walk after := List.foldl_append

theorem walk_empty (p : Place) : p.walk [[]] = p := rfl

theorem step_of_isName (p : Place) {name : Text} (h : Path.IsName name) : p.step name = p ++ [name] := by
  rw [step, h.counts, Bool.not_true, if_neg Bool.false_ne_true, if_neg h.ne_up]

theorem walk_of_isName (p : Place) {ns : List Text} (h : ∀ name ∈ ns, Path.IsName name) :
    p.walk ns = p ++ ns := by
  induction ns generalizing p with
  | nil => exact (List.append_nil p).symm
  | cons name ns ih =>
    obtain ⟨hname, hns⟩ := List.forall_mem_cons.1 h
    show (p.step name).walk ns = _
    rw [step_of_isName p hname, ih _ hns, List.append_assoc, List.singleton_append]

end Place

namespace FileTree

variable {t t' : FileTree} {p q : Place} {names : List Text}

@[simp] theorem find?_nil (t : FileTree) : t.find? [] = some .directory := rfl

theorem ne_nil_of_find? (h : t.find? p ≠ some .directory) : p ≠ [] := by
  rintro rfl
  exact h rfl

theorem find?_of_ne_nil (t : FileTree) (h : p ≠ []) : t.find? p = t.entries.lookup p :=
  if_neg fun he => h (List.isEmpty_iff.1 he)

theorem find?_put_self (t : FileTree) (h : p ≠ []) (e : FileEntry) : (t.put p e).find? p = some e := by
  rw [find?_of_ne_nil _ h]
  exact lookup_putEntry_self p e t.entries

theorem find?_put_ne (t : FileTree) (h : q ≠ p) (e : FileEntry) : (t.put p e).find? q = t.find? q := by
  cases q with
  | nil => rfl
  | cons name q =>
    rw [find?_of_ne_nil _ (List.cons_ne_nil name q), find?_of_ne_nil _ (List.cons_ne_nil name q)]
    exact lookup_putEntry_ne h e t.entries

theorem put_put (t : FileTree) (p : Place) (e e' : FileEntry) : (t.put p e).put p e' = t.put p e' := by
  have hentries : ∀ es, putEntry p e' (putEntry p e es) = putEntry p e' es := by
    intro es
    induction es with
    | nil => simp [putEntry]
    | cons f es ih =>
      obtain ⟨q, f⟩ := f
      by_cases hq : q = p
      · simp [putEntry, hq]
      · simp [putEntry, hq, ih]
  exact congrArg FileTree.mk (hentries t.entries)

theorem keys_putEntry (p : Place) (e : FileEntry) (es : List (Place × FileEntry)) :
    (putEntry p e es).map Prod.fst =
      if p ∈ es.map Prod.fst then es.map Prod.fst else es.map Prod.fst ++ [p] := by
  induction es with
  | nil => rfl
  | cons f es ih =>
    obtain ⟨r, f⟩ := f
    by_cases hr : r = p
    · simp [putEntry, hr]
    · rw [putEntry, if_neg hr, List.map_cons, ih, List.map_cons]
      by_cases hp : p ∈ es.map Prod.fst
      · rw [if_pos hp, if_pos (List.mem_cons_of_mem r hp)]
      · have hnew : p ∉ r :: es.map Prod.fst := List.not_mem_cons_of_ne_of_not_mem (Ne.symm hr) hp
        rw [if_neg hp, if_neg hnew, List.cons_append]

def Open (t : FileTree) : Place → List Text → Prop
  | _, [] => True
  | p, name :: names => t.find? p = some .directory ∧ t.Open (p.step name) names

def fits (name : Text) : Bool := !Path.counts name || name = ".." || nameLength name ≤ maxName

theorem Open.mono (hd : ∀ p, t.find? p = some .directory → t'.find? p = some .directory) (h : t.Open p names) :
    t'.Open p names := by
  induction names generalizing p with
  | nil => trivial
  | cons name names ih => exact ⟨hd p h.1, ih h.2⟩

theorem open_append {before after : List Text} :
    t.Open p (before ++ after) ↔ t.Open p before ∧ t.Open (p.walk before) after := by
  induction before generalizing p with
  | nil => exact (and_iff_right trivial).symm
  | cons name before ih =>
    show _ ∧ t.Open (p.step name) (before ++ after) ↔ (_ ∧ t.Open (p.step name) before) ∧ _
    rw [ih, and_assoc]
    rfl

theorem follow_of_open (path : Text) (h : t.Open p names) :
    t.follow path p names = if names.all fits then .ok (p.walk names) else .error (.tooLong path) := by
  induction names generalizing p with
  | nil => rfl
  | cons name names ih =>
    obtain ⟨hp, h⟩ := h
    have hrest := ih h
    have hwalk : p.walk (name :: names) = (p.step name).walk names := rfl
    rw [follow, hp, hwalk, List.all_cons, fits]
    unfold Place.step at hrest ⊢
    dsimp only
    -- A name that says nothing is gone by, and of the others only one that leads downward can be too long.
    cases hcounts : Path.counts name with
    | false =>
      rw [hcounts] at hrest
      exact hrest
    | true =>
      rw [hcounts, Bool.not_true, if_neg Bool.false_ne_true] at hrest
      rw [Bool.not_true, if_neg Bool.false_ne_true, if_neg Bool.false_ne_true]
      by_cases hup : name = ".."
      · rw [if_pos hup] at hrest ⊢
        rw [if_pos hup, hrest, decide_eq_true hup]
        rfl
      · rw [if_neg hup] at hrest ⊢
        rw [if_neg hup, hrest, decide_eq_false hup]
        by_cases hlong : maxName < nameLength name
        · rw [if_pos hlong, decide_eq_false (Nat.not_le.2 hlong)]
          rfl
        · rw [if_neg hlong, decide_eq_true (Nat.not_lt.1 hlong)]
          rfl

theorem open_of_follow {path : Text} (h : t.follow path p names = .ok q) : t.Open p names := by
  induction names generalizing p with
  | nil => trivial
  | cons name names ih =>
    rw [follow] at h
    split at h
    · cases h
    · cases h
    · rename_i hp
      refine ⟨hp, ?_⟩
      unfold Place.step
      split at h
      · rename_i hcounts
        rw [if_pos hcounts]
        exact ih h
      · rename_i hcounts
        rw [if_neg hcounts]
        split at h
        · rename_i hup
          rw [if_pos hup]
          exact ih h
        · rename_i hup
          rw [if_neg hup]
          split at h
          · cases h
          · exact ih h

/-- The places of the entries are told apart, and each entry lies in a directory under a name. -/
structure Sound (t : FileTree) : Prop where
  nodup : (t.entries.map Prod.fst).Nodup
  within : ∀ p ∈ t.entries.map Prod.fst, ∃ d name, p = d ++ [name] ∧ Path.IsName name ∧
    t.find? d = some .directory

theorem sound_iff : t.Sound ↔ (t.entries.map Prod.fst).Nodup ∧ ∀ p ∈ t.entries.map Prod.fst,
    p ≠ [] ∧ Path.IsName (p.getLastD []) ∧ t.find? p.dropLast = some .directory := by
  constructor
  · refine fun h => ⟨h.nodup, fun p hp => ?_⟩
    obtain ⟨d, name, rfl, hname, hd⟩ := h.within p hp
    rw [List.getLastD_concat, List.dropLast_concat]
    exact ⟨List.append_ne_nil_of_right_ne_nil d (List.cons_ne_nil name []), hname, hd⟩
  · refine fun h => ⟨h.1, fun p hp => ?_⟩
    obtain ⟨hne, hname, hd⟩ := h.2 p hp
    refine ⟨p.dropLast, p.getLastD [], ?_, hname, hd⟩
    rw [List.getLastD_eq_getLast?, List.getLast?_eq_some_getLast hne, Option.getD_some]
    exact (List.dropLast_concat_getLast hne).symm

instance (t : FileTree) : Decidable t.Sound := decidable_of_iff _ sound_iff.symm

theorem mem_keys_of_find? {e : FileEntry} (hne : p ≠ []) (h : t.find? p = some e) :
    p ∈ t.entries.map Prod.fst := by
  rw [find?_of_ne_nil t hne] at h
  exact List.mem_map_of_mem (mem_of_lookup h)

namespace Sound

variable (h : t.Sound)
include h

theorem ne_nil_of_mem {p : Place} (hp : p ∈ t.entries.map Prod.fst) : p ≠ [] := by
  obtain ⟨d, name, rfl, -⟩ := h.within p hp
  exact List.append_ne_nil_of_right_ne_nil d (List.cons_ne_nil name [])

theorem mem_entries_iff {p : Place} {e : FileEntry} : (p, e) ∈ t.entries ↔ p ≠ [] ∧ t.find? p = some e := by
  constructor
  · intro hp
    have hne := h.ne_nil_of_mem (List.mem_map_of_mem hp)
    exact ⟨hne, by rw [find?_of_ne_nil t hne, lookup_of_mem h.nodup hp]⟩
  · rintro ⟨hne, hp⟩
    rw [find?_of_ne_nil t hne] at hp
    exact mem_of_lookup hp

/-- Whatever lies at a place lies in a directory. -/
theorem directory_of_dropLast {p : Place} {e : FileEntry} (hp : t.find? p = some e) :
    t.find? p.dropLast = some .directory := by
  cases p with
  | nil => rfl
  | cons first p =>
    obtain ⟨d, name, hd, -, hdir⟩ := h.within _ (mem_keys_of_find? (List.cons_ne_nil first p) hp)
    rwa [hd, List.dropLast_concat]

/-- From a directory on there are directories on the way to whatever lies below it, and only names. -/
theorem open_of_find? {p : Place} {ns : List Text} {e : FileEntry} (hne : ns ≠ [])
    (hp : t.find? (p ++ ns) = some e) :
    t.find? p = some .directory ∧ t.Open p ns ∧ Path.LeadDown ns := by
  induction hns : ns.length generalizing ns e with
  | zero => exact absurd (List.length_eq_zero_iff.1 hns) hne
  | succ n ih =>
    obtain ⟨before, last, rfl⟩ : ∃ before last, ns = before ++ [last] :=
      ⟨_, _, (List.dropLast_concat_getLast hne).symm⟩
    rw [← List.append_assoc] at hp
    obtain ⟨d, name, hd, hname, hdir⟩ := h.within _ (mem_keys_of_find? (by simp) hp)
    obtain ⟨rfl, hlast⟩ := List.append_inj' hd rfl
    obtain rfl : last = name := by simpa using hlast
    cases before with
    | nil =>
      rw [List.append_nil] at hdir
      exact ⟨hdir, ⟨hdir, trivial⟩, by simp, by simpa using hname⟩
    | cons first before =>
      have hlength : (first :: before).length = n := by simpa using hns
      obtain ⟨hstart, hopen, -, hnames⟩ := ih (List.cons_ne_nil first before) hdir hlength
      refine ⟨hstart, open_append.2 ⟨hopen, ?_⟩, by simp, fun name hname' => ?_⟩
      · rw [Place.walk_of_isName p hnames]
        exact ⟨hdir, trivial⟩
      · rcases List.mem_append.1 hname' with hname' | hname'
        · exact hnames name hname'
        · rwa [List.mem_singleton.1 hname']

/-- At the end of an open way is a directory, or a place in one. -/
theorem end_of_open {p : Place} {names : List Text} (hp : t.find? p = some .directory) (hopen : t.Open p names)
    (hslash : ∀ name ∈ names, (.char '/' : CodePoint) ∉ name) :
    t.find? (p.walk names) = some .directory ∨
      ∃ d name, p.walk names = d ++ [name] ∧ Path.IsName name ∧ t.find? d = some .directory := by
  induction names generalizing p with
  | nil => exact .inl hp
  | cons name names ih =>
    obtain ⟨hname, hslash⟩ := List.forall_mem_cons.1 hslash
    obtain ⟨-, hopen⟩ := hopen
    by_cases hat : t.find? (p.step name) = some .directory
    · exact ih hat hopen hslash
    · -- Only a name that leads downward can leave the directories, and then no other name comes after it.
      cases names with
      | cons next names => exact absurd hopen.1 hat
      | nil =>
        refine .inr ⟨p, name, ?_⟩
        show p.step name = _ ∧ _
        unfold Place.step at hat ⊢
        cases hcounts : Path.counts name with
        | false =>
          rw [hcounts] at hat
          exact absurd hp hat
        | true =>
          rw [hcounts, Bool.not_true, if_neg Bool.false_ne_true] at hat
          rw [Bool.not_true, if_neg Bool.false_ne_true]
          by_cases hup : name = ".."
          · rw [if_pos hup] at hat
            exact absurd (h.directory_of_dropLast hp) hat
          · rw [if_neg hup]
            exact ⟨rfl, ⟨hcounts, hup, hname⟩, hp⟩

theorem put {d p : Place} {name : Text} (hp : p = d ++ [name]) (hname : Path.IsName name)
    (hd : t.find? d = some .directory) {e : FileEntry}
    (hkeep : t.find? p = some .directory → e = .directory) : (t.put p e).Sound := by
  have hne : p ≠ [] := by
    rw [hp]
    exact List.append_ne_nil_of_right_ne_nil d (List.cons_ne_nil name [])
  have hdirectory : ∀ q, t.find? q = some .directory → (t.put p e).find? q = some .directory := by
    intro q hq
    by_cases hqp : q = p
    · rw [hqp] at hq ⊢
      rw [find?_put_self t hne, hkeep hq]
    · rwa [find?_put_ne t hqp]
  have hkeys : (t.put p e).entries.map Prod.fst =
      if p ∈ t.entries.map Prod.fst then t.entries.map Prod.fst else t.entries.map Prod.fst ++ [p] :=
    keys_putEntry p e t.entries
  refine ⟨?_, fun q hq => ?_⟩
  · rw [hkeys]
    split
    · exact h.nodup
    · rename_i hnew
      refine List.nodup_append.2 ⟨h.nodup, by simp, fun q hq r hr he => hnew ?_⟩
      rwa [← List.mem_singleton.1 hr, ← he]
  · have hcases : q ∈ t.entries.map Prod.fst ∨ q = p := by
      rw [hkeys] at hq
      split at hq
      · exact .inl hq
      · exact (List.mem_append.1 hq).imp_right List.mem_singleton.1
    rcases hcases with hq | rfl
    · obtain ⟨d', name', hq, hname', hd'⟩ := h.within q hq
      exact ⟨d', name', hq, hname', hdirectory d' hd'⟩
    · exact ⟨d, name, hp, hname, hdirectory d hd⟩

end Sound

end FileTree

end CallTrace
