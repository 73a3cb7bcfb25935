namespace CallTrace.Pool

variable {α : Type u}

/-- The place of the next item done among those under way, by how many other items are left. -/
abbrev Chance := Nat → Nat

/-- The item at a place, and the others; past the end it is the last. -/
def pick : Nat → α → List α → α × List α
  | 0, a, as => (a, as)
  | _, a, [] => (a, [])
  | n + 1, a, b :: as => ((pick n b as).1, a :: (pick n b as).2)

@[simp] theorem length_pick (n : Nat) (a : α) (as : List α) : (pick n a as).2.length = as.length := by
  fun_induction pick n a as <;> simp_all

theorem pick_perm (n : Nat) (a : α) (as : List α) :
    ((pick n a as).1 :: (pick n a as).2).Perm (a :: as) := by
  fun_induction pick n a as with
  | case1 => exact .refl _
  | case2 => exact .refl _
  | case3 n a b as ih => exact (List.Perm.swap a _ _).trans (ih.cons a)

/-- Items in the order in which they are done, given those under way and those that wait. Once an item
halts the work, none is taken up any more. -/
def done (workers : Nat) (chance : Chance) (halts : α → Bool) (current waiting : List α) : List α :=
  match _h : current ++ waiting.take (workers - current.length) with
  | [] => []
  | a :: as =>
    let rest := waiting.drop (workers - current.length)
    let next := pick (chance (as.length + rest.length)) a as
    next.1 :: done workers chance halts next.2 (bif halts next.1 then [] else rest)
termination_by current.length + waiting.length
decreasing_by
  have h := congrArg List.length _h
  simp only [List.length_append, List.length_take, List.length_cons] at h
  rw [length_pick]
  cases halts next.1 <;> simp only [cond, List.length_nil, List.length_drop] <;> omega

/-- The order in which items are done, none being under way at first. -/
def order (workers : Nat) (chance : Chance) (halts : α → Bool) (items : List α) : List α :=
  done workers chance halts [] items

theorem done_perm {workers : Nat} (hw : 0 < workers) (chance : Chance) {halts : α → Bool}
    {current waiting : List α} (hh : ∀ a ∈ current ++ waiting, halts a = false) :
    (done workers chance halts current waiting).Perm (current ++ waiting) := by
  fun_induction done workers chance halts current waiting with
  | case1 current waiting h =>
    have hn := congrArg List.length h
    simp only [List.length_append, List.length_take, List.length_nil] at hn
    have hc : current = [] := List.length_eq_zero_iff.1 (by omega)
    subst hc
    have : waiting = [] := List.length_eq_zero_iff.1 (by simp only [List.length_nil] at hn; omega)
    simp [this]
  | case2 current waiting a as h rest next ih =>
    have hsplit : current ++ waiting = a :: (as ++ rest) := by
      rw [← List.cons_append, ← h, List.append_assoc, List.take_append_drop]
    have hperm : (next.1 :: (next.2 ++ rest)).Perm (a :: (as ++ rest)) := (pick_perm _ a as).append_right rest
    rw [hsplit] at hh ⊢
    have hgoes : ∀ b ∈ next.1 :: (next.2 ++ rest), halts b = false := fun b hb => hh b (hperm.mem_iff.1 hb)
    obtain ⟨hnext, hrest⟩ := List.forall_mem_cons.1 hgoes
    rw [hnext, cond_false] at ih
    rw [hnext, cond_false]
    exact ((ih hrest).cons next.1).trans hperm

/-- Work that nothing halts is done item by item, each once. -/
theorem order_perm {workers : Nat} (hw : 0 < workers) (chance : Chance) {halts : α → Bool}
    {items : List α} (hh : ∀ a ∈ items, halts a = false) :
    (order workers chance halts items).Perm items :=
  done_perm hw chance hh

end CallTrace.Pool
