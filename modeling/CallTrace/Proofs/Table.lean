import CallTrace.Proofs.Lookup
import CallTrace.Table
import Mathlib.Data.List.Induction

namespace CallTrace.Table

variable {α : Type u}

theorem mem_insertEntry_iff {key : Int} {value : α} {es : List (Int × α)} {e : Int × α}
    (h : es.Pairwise (fun a b => a.1 < b.1)) :
    e ∈ insertEntry key value es ↔ e = (key, value) ∨ e ∈ es ∧ e.1 ≠ key := by
  induction es with
  | nil => simp [insertEntry]
  | cons f es ih =>
    obtain ⟨k, v⟩ := f
    obtain ⟨hk, hes⟩ := List.pairwise_cons.1 h
    rw [insertEntry]
    split
    · rename_i hlt
      -- All keys behind the new one are greater, so none of them is replaced.
      have hne : ∀ e ∈ (k, v) :: es, e.1 ≠ key := by
        intro e he
        rcases List.mem_cons.1 he with rfl | he
        · exact (Int.ne_of_lt hlt).symm
        · exact (Int.ne_of_lt (Int.lt_trans hlt (hk e he))).symm
      rw [List.mem_cons]
      exact or_congr_right ⟨fun he => ⟨he, hne e he⟩, And.left⟩
    · split
      · rename_i heq
        subst heq
        have hne : ∀ e ∈ es, e.1 ≠ key := fun e he => (Int.ne_of_lt (hk e he)).symm
        rw [List.mem_cons, List.mem_cons]
        refine or_congr_right ⟨fun he => ⟨.inr he, hne e he⟩, ?_⟩
        rintro ⟨rfl | he, hkey⟩
        · exact absurd rfl hkey
        · exact he
      · rename_i hne
        rw [List.mem_cons, ih hes, List.mem_cons]
        constructor
        · rintro (rfl | rfl | ⟨he, hkey⟩)
          · exact .inr ⟨.inl rfl, fun h => hne h.symm⟩
          · exact .inl rfl
          · exact .inr ⟨.inr he, hkey⟩
        · rintro (rfl | ⟨rfl | he, hkey⟩)
          · exact .inr (.inl rfl)
          · exact .inl rfl
          · exact .inr (.inr ⟨he, hkey⟩)

theorem mem_foldl_insert {es : List (Int × α)} (h : (es.map Prod.fst).Nodup) (t : Table α) (e : Int × α) :
    e ∈ (es.foldl (fun t e => t.insert e.1 e.2) t).entries ↔
      e ∈ es ∨ e ∈ t.entries ∧ e.1 ∉ es.map Prod.fst := by
  induction es generalizing t with
  | nil => simp
  | cons f es ih =>
    obtain ⟨hf, hes⟩ := List.nodup_cons.1 h
    rw [List.foldl_cons, ih hes]
    show _ ∨ e ∈ insertEntry f.1 f.2 t.entries ∧ _ ↔ _
    rw [mem_insertEntry_iff t.sorted, List.map_cons, List.mem_cons, List.mem_cons]
    constructor
    · rintro (he | ⟨rfl | ⟨he, hkey⟩, hnot⟩)
      · exact .inl (.inr he)
      · exact .inl (.inl rfl)
      · exact .inr ⟨he, not_or.2 ⟨hkey, hnot⟩⟩
    · rintro ((rfl | he) | ⟨he, hnot⟩)
      · exact .inr ⟨.inl rfl, hf⟩
      · exact .inl he
      · obtain ⟨hkey, hnot⟩ := not_or.1 hnot
        exact .inr ⟨.inr ⟨he, hkey⟩, hnot⟩

theorem mem_of_mem_ofList {es : List (Int × α)} {e : Int × α} (h : e ∈ (ofList es).entries) : e ∈ es := by
  have hfold : ∀ t : Table α, e ∈ (es.foldl (fun t e => t.insert e.1 e.2) t).entries → e ∈ es ∨ e ∈ t.entries := by
    clear h
    induction es with
    | nil => exact fun t ht => .inr ht
    | cons f es ih =>
      intro t ht
      rcases ih (t.insert f.1 f.2) ht with he | he
      · exact .inl (List.mem_cons_of_mem f he)
      · rcases mem_insertEntry he with rfl | he
        · exact .inl List.mem_cons_self
        · exact .inr he
  rcases hfold empty h with he | he
  · exact he
  · cases he

/-- Of entries with different keys none takes the place of another. -/
theorem mem_ofList {es : List (Int × α)} (h : (es.map Prod.fst).Nodup) (e : Int × α) :
    e ∈ (ofList es).entries ↔ e ∈ es := by
  unfold ofList
  rw [mem_foldl_insert h]
  simp [empty]

theorem nodup_keys (t : Table α) : (t.entries.map Prod.fst).Nodup :=
  List.pairwise_map.2 (t.sorted.imp fun h => Int.ne_of_lt h)

theorem nodup_entries (t : Table α) : t.entries.Nodup := by
  refine t.sorted.imp ?_
  rintro a b hab rfl
  exact Int.lt_irrefl _ hab

/-- Two maps that hold the same entries are one. -/
theorem ext_mem {s t : Table α} (h : ∀ e, e ∈ s.entries ↔ e ∈ t.entries) : s = t := by
  have hperm : s.entries.Perm t.entries := (List.perm_ext_iff_of_nodup s.nodup_entries t.nodup_entries).2 h
  apply Table.ext
  refine hperm.eq_of_pairwise ?_ s.sorted t.sorted
  intro a b _ _ hab hba
  exact absurd (Int.lt_trans hab hba) (Int.lt_irrefl _)

/-- A map is made of its entries, in whatever order they come. -/
theorem ofList_of_perm {t : Table α} {es : List (Int × α)} (h : es.Perm t.entries) : ofList es = t := by
  have hnodup : (es.map Prod.fst).Nodup := (h.map Prod.fst).nodup_iff.2 t.nodup_keys
  exact ext_mem fun e => (mem_ofList hnodup e).trans h.mem_iff

theorem ofList_entries (t : Table α) : ofList t.entries = t := ofList_of_perm (.refl _)

theorem lookup_insertEntry (key : Int) (value : α) (es : List (Int × α)) (k : Int) :
    (insertEntry key value es).lookup k = if k = key then some value else es.lookup k := by
  induction es with
  | nil => rw [insertEntry, lookup_cons_ite]
  | cons e es ih =>
    obtain ⟨k', v⟩ := e
    rw [insertEntry]
    split
    · rw [lookup_cons_ite]
    · split
      · rename_i heq
        subst heq
        rw [lookup_cons_ite, lookup_cons_ite]
        split <;> rfl
      · rename_i hne
        rw [lookup_cons_ite, ih, lookup_cons_ite]
        by_cases hk : k = k'
        · rw [if_pos hk, if_neg (hk ▸ Ne.symm hne), if_pos hk]
        · rw [if_neg hk, if_neg hk]

theorem find?_insert (t : Table α) (key : Int) (value : α) (k : Int) :
    (t.insert key value).find? k = if k = key then some value else t.find? k :=
  lookup_insertEntry key value t.entries k

def latest? (es : List (Int × α)) (key : Int) : Option α := es.reverse.lookup key

theorem find?_ofList (es : List (Int × α)) (key : Int) : (ofList es).find? key = latest? es key := by
  induction es using List.reverseRecOn with
  | nil => rfl
  | append_singleton es e ih =>
    have hlast : ofList (es ++ [e]) = (ofList es).insert e.1 e.2 := List.foldl_append
    rw [hlast, find?_insert, ih, latest?, latest?, List.reverse_append, List.reverse_singleton,
      List.singleton_append, lookup_cons_ite]

theorem mem_entries_iff {t : Table α} {key : Int} {value : α} :
    (key, value) ∈ t.entries ↔ t.find? key = some value :=
  ⟨lookup_of_mem t.nodup_keys, mem_of_lookup⟩

/-- Two maps in which the same is found under every key are one. -/
theorem ext_find? {s t : Table α} (h : ∀ key, s.find? key = t.find? key) : s = t :=
  ext_mem fun (key, value) => by rw [mem_entries_iff, mem_entries_iff, h]

/-- In whatever order entries are put into two maps, the maps are one just if the same came last under every key. -/
theorem ofList_eq_iff {es fs : List (Int × α)} :
    ofList es = ofList fs ↔ ∀ key, latest? es key = latest? fs key := by
  simp only [← find?_ofList]
  exact ⟨fun h key => by rw [h], ext_find?⟩

/-- Nothing was put anywhere just if there were no entries. -/
theorem latest?_eq_none_iff {es : List (Int × α)} : (∀ key, latest? es key = none) ↔ es = [] := by
  refine ⟨fun h => ?_, fun h key => by rw [h]; rfl⟩
  rw [← List.reverse_eq_nil_iff]
  cases hes : es.reverse with
  | nil => rfl
  | cons e rest =>
    have hnone := h e.1
    rw [latest?, hes, lookup_cons_ite, if_pos rfl] at hnone
    cases hnone

theorem entries_ofList_eq_nil_iff {es : List (Int × α)} : (ofList es).entries = [] ↔ es = [] := by
  have hempty : (ofList es).entries = [] ↔ ofList es = ofList [] :=
    ⟨fun h => Table.ext h, fun h => congrArg entries h⟩
  rw [hempty, ofList_eq_iff, ← latest?_eq_none_iff]
  rfl

theorem latest?_map {β : Type v} (f : α → β) (es : List (Int × α)) (key : Int) :
    latest? (es.map fun e => (e.1, f e.2)) key = (latest? es key).map f := by
  unfold latest?
  rw [← List.map_reverse]
  induction es.reverse with
  | nil => rfl
  | cons e es ih =>
    rw [List.map_cons, lookup_cons_ite, lookup_cons_ite, ih]
    split <;> rfl

end CallTrace.Table
