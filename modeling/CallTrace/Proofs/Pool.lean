import CallTrace.Pool
import Mathlib.Data.List.Perm.Subperm

namespace CallTrace.Pool

variable {α : Type u}

/-- An order in which work can be finished: of the items under way, as many as there are workers, any one may
be the next that is done. -/
inductive Finishes (workers : Nat) : List α → List α → List α → Prop where
  | last {current waiting : List α} (h : current ++ waiting.take (workers - current.length) = []) :
    Finishes workers current waiting []
  | next {current waiting before after order : List α} {a : α}
    (h : current ++ waiting.take (workers - current.length) = before ++ a :: after)
    (hrest : Finishes workers (before ++ after) (waiting.drop (workers - current.length)) order) :
    Finishes workers current waiting (a :: order)

theorem pick_at (before after : List α) (x a : α) (as : List α) (h : a :: as = before ++ x :: after) :
    pick before.length a as = (x, before ++ after) := by
  induction before generalizing a as with
  | nil =>
    obtain ⟨rfl, rfl⟩ := List.cons.inj h
    rfl
  | cons b before ih =>
    obtain ⟨rfl, htail⟩ := List.cons.inj h
    cases as with
    | nil => exact absurd htail.symm (by simp)
    | cons c as =>
      rw [List.length_cons, pick, ih c as htail]
      rfl

theorem exists_pick (n : Nat) (a : α) (as : List α) :
    ∃ before after, a :: as = before ++ (pick n a as).1 :: after ∧ (pick n a as).2 = before ++ after := by
  fun_induction pick n a as with
  | case1 a as => exact ⟨[], as, rfl, rfl⟩
  | case2 n a => exact ⟨[], [], rfl, rfl⟩
  | case3 n a b as ih =>
    obtain ⟨before, after, hsplit, hrest⟩ := ih
    exact ⟨a :: before, after, by rw [hsplit]; rfl, by rw [hrest]; rfl⟩

abbrev goesOn (workers : Nat) (chance : Chance) (current waiting : List α) : List α :=
  done workers chance (fun _ => false) current waiting

variable {workers : Nat} {current waiting : List α}

theorem length_left {a : α} {as : List α} (h : current ++ waiting.take (workers - current.length) = a :: as) :
    as.length + (waiting.drop (workers - current.length)).length + 1 = current.length + waiting.length := by
  have hlength := congrArg List.length h
  simp only [List.length_append, List.length_take, List.length_cons] at hlength
  rw [List.length_drop]
  omega

theorem goesOn_nil (chance : Chance) (h : current ++ waiting.take (workers - current.length) = []) :
    goesOn workers chance current waiting = [] := by
  rw [goesOn, done]
  split
  · rfl
  · rename_i hsome
    rw [h] at hsome
    cases hsome

theorem goesOn_cons (chance : Chance) {a : α} {as : List α}
    (h : current ++ waiting.take (workers - current.length) = a :: as) :
    goesOn workers chance current waiting =
      let next := pick (chance (current.length + waiting.length - 1)) a as
      next.1 :: goesOn workers chance next.2 (waiting.drop (workers - current.length)) := by
  have hleft : as.length + (waiting.drop (workers - current.length)).length =
      current.length + waiting.length - 1 := by
    have hlength := length_left h
    omega
  rw [goesOn, done]
  split
  · rename_i hnone
    rw [h] at hnone
    cases hnone
  · rename_i b bs hsome
    obtain ⟨rfl, rfl⟩ := List.cons.inj (h.symm.trans hsome)
    simp only [hleft, cond_false]

/-- Chance is asked only about counts below that of the items that are left. -/
theorem goesOn_congr {chance chance' : Chance}
    (h : ∀ n < current.length + waiting.length, chance n = chance' n) :
    goesOn workers chance current waiting = goesOn workers chance' current waiting := by
  induction hn : current.length + waiting.length using Nat.strongRecOn generalizing current waiting with
  | ind n ih =>
    cases hnext : current ++ waiting.take (workers - current.length) with
    | nil => rw [goesOn_nil _ hnext, goesOn_nil _ hnext]
    | cons a as =>
      have hleft := length_left hnext
      rw [goesOn_cons _ hnext, goesOn_cons _ hnext, h _ (by omega)]
      refine congrArg (List.cons _) (ih _ ?_ (fun m hm => h m ?_) rfl)
      · rw [length_pick]
        omega
      · rw [length_pick] at hm
        omega

/-- Every order in which work can be finished comes about by some chance, and no other order does. -/
theorem finishes_iff {order : List α} :
    Finishes workers current waiting order ↔ ∃ chance, goesOn workers chance current waiting = order := by
  constructor
  · intro h
    induction h with
    | last h => exact ⟨fun _ => 0, goesOn_nil _ h⟩
    | @next current waiting before after order a h hrest ih =>
      obtain ⟨chance, rfl⟩ := ih
      obtain ⟨b, bs, hb⟩ : ∃ b bs, before ++ a :: after = b :: bs := by
        cases before <;> exact ⟨_, _, rfl⟩
      have hleft := length_left (h.trans hb)
      have hlength := congrArg List.length hb
      simp only [List.length_append, List.length_cons] at hlength
      -- The place of this item is asked for while more items are left than ever after.
      refine ⟨fun n => if n = current.length + waiting.length - 1 then before.length else chance n, ?_⟩
      rw [goesOn_cons _ (h.trans hb)]
      simp only [if_pos, pick_at before after a b bs hb.symm]
      refine congrArg (List.cons a) (goesOn_congr fun n hn => if_neg ?_)
      rw [List.length_append] at hn
      omega
  · rintro ⟨chance, rfl⟩
    induction hn : current.length + waiting.length using Nat.strongRecOn generalizing current waiting with
    | ind n ih =>
      cases hnext : current ++ waiting.take (workers - current.length) with
      | nil =>
        rw [goesOn_nil _ hnext]
        exact .last hnext
      | cons a as =>
        have hleft := length_left hnext
        obtain ⟨before, after, hsplit, hrest⟩ := exists_pick (chance (current.length + waiting.length - 1)) a as
        rw [goesOn_cons _ hnext]
        refine .next (hnext.trans hsplit) ?_
        rw [← hrest]
        exact ih _ (by rw [length_pick]; omega) rfl

/-- Only what was under way or waiting is done, even if something halts the work. -/
theorem mem_of_mem_done {chance : Chance} {halts : α → Bool} {a : α}
    (h : a ∈ done workers chance halts current waiting) : a ∈ current ++ waiting := by
  fun_induction done workers chance halts current waiting with
  | case1 => cases h
  | case2 current waiting b bs hnext rest next ih =>
    have hsplit : current ++ waiting = b :: (bs ++ rest) := by
      rw [← List.cons_append, ← hnext, List.append_assoc, List.take_append_drop]
    have hperm : (next.1 :: (next.2 ++ rest)).Perm (b :: (bs ++ rest)) := (pick_perm _ b bs).append_right rest
    rw [hsplit, ← hperm.mem_iff]
    rcases List.mem_cons.1 h with rfl | h
    · exact List.mem_cons_self
    · refine List.mem_cons_of_mem _ ?_
      -- If this item halts the work, nothing waits any more; else the same items wait as before.
      rcases List.mem_append.1 (ih h) with h | h
      · exact List.mem_append_left _ h
      · cases hhalts : halts next.1 with
        | true =>
          rw [hhalts] at h
          cases h
        | false =>
          rw [hhalts] at h
          exact List.mem_append_right _ h

/-- Nothing is done twice. -/
theorem done_subperm (workers : Nat) (chance : Chance) (halts : α → Bool) (current waiting : List α) :
    (done workers chance halts current waiting).Subperm (current ++ waiting) := by
  fun_induction done workers chance halts current waiting with
  | case1 => exact List.nil_subperm
  | case2 current waiting a as hnext rest next ih =>
    have hsplit : current ++ waiting = a :: (as ++ rest) := by
      rw [← List.cons_append, ← hnext, List.append_assoc, List.take_append_drop]
    have hperm : (next.1 :: (next.2 ++ rest)).Perm (a :: (as ++ rest)) := (pick_perm _ a as).append_right rest
    have hleft : (next.2 ++ bif halts next.1 then [] else rest).Subperm (next.2 ++ rest) := by
      cases halts next.1 with
      | true => exact ((List.nil_sublist rest).append_left next.2).subperm
      | false => exact .refl _
    rw [hsplit]
    exact ((List.subperm_cons next.1).2 (ih.trans hleft)).trans hperm.subperm

/-- If nothing that is done halts the work, it is done as if nothing could. -/
theorem done_eq_goesOn {workers : Nat} {chance : Chance} {halts : α → Bool} {current waiting : List α}
    (h : ∀ a ∈ done workers chance halts current waiting, halts a = false) :
    done workers chance halts current waiting = goesOn workers chance current waiting := by
  fun_induction done workers chance halts current waiting with
  | case1 current waiting hnext => exact (goesOn_nil chance hnext).symm
  | case2 current waiting a as hnext rest next ih =>
    obtain ⟨hfirst, hothers⟩ := List.forall_mem_cons.1 h
    have hleft : as.length + rest.length = current.length + waiting.length - 1 := by
      have hlength : as.length + rest.length + 1 = current.length + waiting.length := length_left hnext
      omega
    rw [goesOn_cons chance hnext, ← hleft]
    rw [hfirst, cond_false] at ih hothers ⊢
    exact congrArg (List.cons _) (ih hothers)

end CallTrace.Pool
