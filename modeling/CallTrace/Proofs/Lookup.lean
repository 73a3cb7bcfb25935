import Mathlib.Data.List.Forall2

namespace CallTrace

variable {α : Type u} {β : Type v} {γ : Type w} [BEq α] [LawfulBEq α]

theorem lookup_cons_ite [DecidableEq α] (e : α × β) (es : List (α × β)) (key : α) :
    (e :: es).lookup key = if key = e.1 then some e.2 else es.lookup key := by
  rw [List.lookup_cons]
  by_cases h : key = e.1
  · rw [if_pos h, beq_iff_eq.2 h]
  · rw [if_neg h, beq_false_of_ne h]

/-- Of different keys each has its own value. -/
theorem lookup_of_mem {entries : List (α × β)} (h : (entries.map Prod.fst).Nodup) {key : α} {value : β}
    (hmem : (key, value) ∈ entries) : entries.lookup key = some value := by
  obtain ⟨before, after, rfl⟩ := List.append_of_mem hmem
  rw [List.map_append, List.map_cons, List.nodup_append] at h
  rw [List.lookup_eq_some_iff]
  refine ⟨before, after, rfl, fun e he => ?_⟩
  rw [bne_iff_ne]
  exact (h.2.2 e.1 (List.mem_map_of_mem he) key List.mem_cons_self).symm

theorem mem_of_lookup {entries : List (α × β)} {key : α} {value : β} (h : entries.lookup key = some value) :
    (key, value) ∈ entries := by
  obtain ⟨before, after, rfl, -⟩ := List.lookup_eq_some_iff.1 h
  exact List.mem_append_right before List.mem_cons_self

omit [LawfulBEq α] in
/-- In lists that go together key by key, what is looked up goes together too. -/
theorem lookup_forall₂ {R : β → γ → Prop} {es : List (α × β)} {fs : List (α × γ)}
    (h : List.Forall₂ (fun e f => f.1 = e.1 ∧ R e.2 f.2) es fs) (key : α) :
    Option.Rel R (es.lookup key) (fs.lookup key) := by
  induction h with
  | nil => exact .none
  | @cons e f es fs he _ ih =>
    obtain ⟨hkey, hR⟩ := he
    rw [List.lookup_cons, List.lookup_cons, hkey]
    split
    · exact .some hR
    · exact ih

theorem isSome_of_rel {R : β → γ → Prop} {x : Option β} {y : Option γ} (h : Option.Rel R x y) :
    x.isSome = y.isSome := by
  cases h with
  | none => rfl
  | some _ => rfl

end CallTrace
