namespace CallTrace

/-- A finite map on integers, kept as its entries in rising order of their keys, so that two maps with
the same entries are one. -/
structure Table (α : Type u) where
  entries : List (Int × α)
  sorted : entries.Pairwise (fun a b => a.1 < b.1)
deriving DecidableEq

namespace Table

variable {α : Type u}

def empty : Table α := ⟨[], .nil⟩

instance : Inhabited (Table α) := ⟨empty⟩

def insertEntry (key : Int) (value : α) : List (Int × α) → List (Int × α)
  | [] => [(key, value)]
  | (k, v) :: es =>
    if key < k then (key, value) :: (k, v) :: es
    else if key = k then (key, value) :: es
    else (k, v) :: insertEntry key value es

theorem mem_insertEntry {key : Int} {value : α} {e : Int × α} {es : List (Int × α)}
    (h : e ∈ insertEntry key value es) : e = (key, value) ∨ e ∈ es := by
  induction es with
  | nil => simpa [insertEntry] using h
  | cons f es ih =>
    obtain ⟨k, v⟩ := f
    simp only [insertEntry] at h
    split at h
    · simpa using h
    · split at h
      · rcases List.mem_cons.1 h with h | h
        · exact .inl h
        · exact .inr (List.mem_cons_of_mem _ h)
      · rcases List.mem_cons.1 h with h | h
        · exact .inr (h ▸ List.mem_cons_self)
        · exact (ih h).imp_right (List.mem_cons_of_mem _)

theorem insertEntry_sorted (key : Int) (value : α) {es : List (Int × α)}
    (h : es.Pairwise (fun a b => a.1 < b.1)) :
    (insertEntry key value es).Pairwise (fun a b => a.1 < b.1) := by
  induction es with
  | nil => simp [insertEntry]
  | cons f es ih =>
    obtain ⟨k, v⟩ := f
    obtain ⟨hk, hes⟩ := List.pairwise_cons.1 h
    simp only [insertEntry]
    split
    · rename_i hlt
      refine List.pairwise_cons.2 ⟨fun e he => ?_, h⟩
      rcases List.mem_cons.1 he with rfl | he
      · exact hlt
      · exact Int.lt_trans hlt (hk e he)
    · split
      · rename_i heq
        subst heq
        exact List.pairwise_cons.2 ⟨hk, hes⟩
      · refine List.pairwise_cons.2 ⟨fun e he => ?_, ih hes⟩
        rcases mem_insertEntry he with rfl | he
        · simp only; omega
        · exact hk e he

def insert (t : Table α) (key : Int) (value : α) : Table α :=
  ⟨insertEntry key value t.entries, insertEntry_sorted key value t.sorted⟩

/-- The map of a list of entries, in which a later entry of a key takes the place of an earlier one. -/
def ofList (es : List (Int × α)) : Table α := es.foldl (fun t e => t.insert e.1 e.2) empty

def find? (t : Table α) (key : Int) : Option α := t.entries.lookup key

def contains (t : Table α) (key : Int) : Bool := (t.find? key).isSome

def isEmpty (t : Table α) : Bool := t.entries.isEmpty

def size (t : Table α) : Nat := t.entries.length

def keys (t : Table α) : List Int := t.entries.map Prod.fst

theorem ext {s t : Table α} (h : s.entries = t.entries) : s = t := by
  cases s; cases t; simpa using h

end Table

end CallTrace
