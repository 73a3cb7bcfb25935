import CallTrace.Batch

namespace CallTrace.Attempts

variable {α : Type u}

theorem addTo_new {key : Text} {groups : List (Text × List α)} (h : key ∉ groups.map Prod.fst) (a : α) :
    addTo key a groups = groups ++ [(key, [a])] := by
  induction groups with
  | nil => rfl
  | cons g groups ih =>
    rw [List.map_cons, List.mem_cons, not_or] at h
    rw [addTo, if_neg fun he => h.1 he.symm, ih h.2, List.cons_append]

theorem addTo_last {key : Text} {groups : List (Text × List α)} (h : key ∉ groups.map Prod.fst) (as : List α)
    (a : α) : addTo key a (groups ++ [(key, as)]) = groups ++ [(key, as ++ [a])] := by
  induction groups with
  | nil => simp [addTo]
  | cons g groups ih =>
    rw [List.map_cons, List.mem_cons, not_or] at h
    rw [List.cons_append, addTo, if_neg fun he => h.1 he.symm, ih h.2, List.cons_append]

def addAll (xs : List (Text × α)) (groups : List (Text × List α)) : List (Text × List α) :=
  xs.foldl (fun groups x => addTo x.1 x.2 groups) groups

theorem addAll_append (xs ys : List (Text × α)) (groups : List (Text × List α)) :
    addAll (xs ++ ys) groups = addAll ys (addAll xs groups) := List.foldl_append

theorem addAll_last {key : Text} {groups : List (Text × List α)} (h : key ∉ groups.map Prod.fst)
    (as more : List α) :
    addAll (more.map (key, ·)) (groups ++ [(key, as)]) = groups ++ [(key, as ++ more)] := by
  induction more generalizing as with
  | nil => simp [addAll]
  | cons a more ih =>
    show addAll (more.map (key, ·)) (addTo key a (groups ++ [(key, as)])) = _
    rw [addTo_last h, ih, List.append_assoc, List.singleton_append]

/-- A block with a new key is a new last group, unless it is empty. -/
theorem addAll_new {key : Text} {groups : List (Text × List α)} (h : key ∉ groups.map Prod.fst) (as : List α) :
    addAll (as.map (key, ·)) groups = groups ++ [(key, as)].filter (!·.2.isEmpty) := by
  cases as with
  | nil => simp [addAll]
  | cons a as =>
    show addAll (as.map (key, ·)) (addTo key a groups) = _
    rw [addTo_new h, addAll_last h]
    rfl

theorem addAll_blocks {groups blocks : List (Text × List α)} (hnew : ∀ b ∈ blocks, b.1 ∉ groups.map Prod.fst)
    (h : (blocks.map Prod.fst).Nodup) :
    addAll (blocks.flatMap fun b => b.2.map (b.1, ·)) groups = groups ++ blocks.filter (!·.2.isEmpty) := by
  induction blocks generalizing groups with
  | nil => simp [addAll]
  | cons b blocks ih =>
    obtain ⟨hb, hblocks⟩ := List.forall_mem_cons.1 hnew
    obtain ⟨hkey, h⟩ := List.nodup_cons.1 h
    -- The keys of the other blocks are still new when the first one has its group.
    have hothers : ∀ c ∈ blocks, c.1 ∉ (groups ++ [b].filter (!·.2.isEmpty)).map Prod.fst := by
      intro c hc hmem
      rw [List.map_append, List.mem_append] at hmem
      rcases hmem with hmem | hmem
      · exact hblocks c hc hmem
      · obtain ⟨d, hd, hdc⟩ := List.mem_map.1 hmem
        obtain rfl := List.mem_singleton.1 (List.mem_filter.1 hd).1
        exact hkey (hdc ▸ List.mem_map_of_mem hc)
    rw [List.flatMap_cons, addAll_append, addAll_new hb, ih hothers h, List.append_assoc, ← List.filter_append,
      List.singleton_append]

/-- Blocks are grouped as they come; an empty one leaves no group. -/
theorem group_blocks {blocks : List (Text × List α)} (h : (blocks.map Prod.fst).Nodup) :
    group (blocks.flatMap fun b => b.2.map (b.1, ·)) = blocks.filter (!·.2.isEmpty) :=
  addAll_blocks (fun _ _ => List.not_mem_nil) h

theorem mem_addTo {key : Text} {a c : α} {groups : List (Text × List α)} {g : Text × List α}
    (hg : g ∈ addTo key a groups) (hc : c ∈ g.2) : (g.1, c) = (key, a) ∨ ∃ g' ∈ groups, g'.1 = g.1 ∧ c ∈ g'.2 := by
  induction groups with
  | nil =>
    obtain rfl := List.mem_singleton.1 hg
    obtain rfl := List.mem_singleton.1 hc
    exact .inl rfl
  | cons h groups ih =>
    rw [addTo] at hg
    split at hg
    · rename_i hkey
      rcases List.mem_cons.1 hg with rfl | hg
      · rcases List.mem_append.1 hc with hc | hc
        · exact .inr ⟨h, List.mem_cons_self, rfl, hc⟩
        · obtain rfl := List.mem_singleton.1 hc
          exact .inl (by rw [hkey])
      · exact .inr ⟨g, List.mem_cons_of_mem h hg, rfl, hc⟩
    · rcases List.mem_cons.1 hg with rfl | hg
      · exact .inr ⟨_, List.mem_cons_self, rfl, hc⟩
      · refine (ih hg).imp_right ?_
        rintro ⟨g', hg', hkey, hc⟩
        exact ⟨g', List.mem_cons_of_mem h hg', hkey, hc⟩

theorem mem_addAll {xs : List (Text × α)} {groups : List (Text × List α)} {g : Text × List α} {c : α}
    (hg : g ∈ addAll xs groups) (hc : c ∈ g.2) : (g.1, c) ∈ xs ∨ ∃ g' ∈ groups, g'.1 = g.1 ∧ c ∈ g'.2 := by
  induction xs generalizing groups with
  | nil => exact .inr ⟨g, hg, rfl, hc⟩
  | cons x xs ih =>
    have hall : g ∈ addAll xs (addTo x.1 x.2 groups) := hg
    rcases ih hall with h | ⟨g', hg', hkey, hc'⟩
    · exact .inl (List.mem_cons_of_mem x h)
    · rcases mem_addTo hg' hc' with h | h
      · exact .inl (by rw [← hkey, h]; exact List.mem_cons_self)
      · rw [hkey] at h
        exact .inr h

/-- A value stands in the group of its own key. -/
theorem mem_of_mem_group {xs : List (Text × α)} {g : Text × List α} {c : α} (hg : g ∈ group xs) (hc : c ∈ g.2) :
    (g.1, c) ∈ xs := by
  rcases mem_addAll hg hc with h | ⟨g', hg', -⟩
  · exact h
  · cases hg'

end CallTrace.Attempts
