import Mathlib.Data.List.Forall2

namespace CallTrace.Attempt

variable {ε : Type u} {α β : Type v}

@[simp] theorem pure_eq (a : α) : (pure a : Except ε α) = .ok a := rfl

@[simp] theorem fmap_eq (g : α → β) (x : Except ε α) : g <$> x = x.map g := rfl

@[simp] theorem ok_bind (a : α) (g : α → Except ε β) : (Except.ok a >>= g) = g a := rfl

@[simp] theorem error_bind (f : ε) (g : α → Except ε β) : (Except.error f >>= g) = .error f := rfl

@[simp] theorem map_ok (g : α → β) (a : α) : (Except.ok a : Except ε α).map g = .ok (g a) := rfl

@[simp] theorem map_error (g : α → β) (f : ε) : (Except.error f : Except ε α).map g = .error f := rfl

theorem eq_ok_of_toOption {x : Except ε α} {a : α} (h : x.toOption = some a) : x = .ok a := by
  cases x with
  | error f => cases h
  | ok b => exact congrArg _ (Option.some.inj h)

theorem bind_eq_ok {x : Except ε α} {g : α → Except ε β} {b : β} :
    x >>= g = .ok b ↔ ∃ a, x = .ok a ∧ g a = .ok b := by
  cases x <;> simp

theorem bind_eq_error {x : Except ε α} {g : α → Except ε β} {f : ε} :
    x >>= g = .error f ↔ x = .error f ∨ ∃ a, x = .ok a ∧ g a = .error f := by
  cases x <;> simp

theorem map_eq_ok {x : Except ε α} {g : α → β} {b : β} :
    x.map g = .ok b ↔ ∃ a, x = .ok a ∧ g a = b := by
  cases x <;> simp

theorem map_eq_error {x : Except ε α} {g : α → β} {f : ε} : x.map g = .error f ↔ x = .error f := by
  cases x <;> simp

theorem mapError_eq_ok {ε' : Type w} {u : ε → ε'} {x : Except ε α} {a : α} : x.mapError u = .ok a ↔ x = .ok a := by
  cases x <;> simp [Except.mapError]

theorem mapError_eq_error {ε' : Type w} {u : ε → ε'} {x : Except ε α} {f : ε'} :
    x.mapError u = .error f ↔ ∃ g, x = .error g ∧ u g = f := by
  cases x <;> simp [Except.mapError]

theorem mapError_bind {ε' : Type w} (u : ε → ε') (x : Except ε α) (g : α → Except ε β) :
    (x >>= g).mapError u = x.mapError u >>= fun a => (g a).mapError u := by
  cases x <;> rfl

theorem mapError_map {ε' : Type w} (u : ε → ε') (g : α → β) (x : Except ε α) :
    (x.map g).mapError u = (x.mapError u).map g := by
  cases x <;> rfl

theorem mapM_eq_ok {g : α → Except ε β} {as : List α} {bs : List β} :
    as.mapM g = .ok bs ↔ List.Forall₂ (fun a b => g a = .ok b) as bs := by
  induction as generalizing bs with
  | nil => simp [eq_comm]
  | cons a as ih =>
    simp only [List.mapM_cons, bind_eq_ok, pure_eq, Except.ok.injEq, ih, List.forall₂_cons_left_iff]
    constructor
    · rintro ⟨b, hb, bs, hbs, rfl⟩
      exact ⟨b, bs, hb, hbs, rfl⟩
    · rintro ⟨b, bs, hb, hbs, rfl⟩
      exact ⟨b, hb, bs, hbs, rfl⟩

theorem mapM_append_eq_ok {g : α → Except ε β} {as as' : List α} {bs bs' : List β}
    (h : as.mapM g = .ok bs) (h' : as'.mapM g = .ok bs') : (as ++ as').mapM g = .ok (bs ++ bs') :=
  mapM_eq_ok.2 (List.rel_append (mapM_eq_ok.1 h) (mapM_eq_ok.1 h'))

/-- Two attempts on each item come off for all items together as they do one after the other. -/
theorem mapM_bind_eq_ok {γ : Type v} {g : α → Except ε β} {g' : β → Except ε γ} {as : List α} {cs : List γ} :
    as.mapM (fun a => g a >>= g') = .ok cs ↔ ∃ bs, as.mapM g = .ok bs ∧ bs.mapM g' = .ok cs := by
  simp only [mapM_eq_ok, bind_eq_ok]
  constructor
  · intro h
    induction h with
    | nil => exact ⟨[], .nil, .nil⟩
    | cons hac _ ih =>
      obtain ⟨b, hab, hbc⟩ := hac
      obtain ⟨bs, hbs, hcs⟩ := ih
      exact ⟨b :: bs, .cons hab hbs, .cons hbc hcs⟩
  · rintro ⟨bs, hbs, hcs⟩
    induction hbs generalizing cs with
    | nil =>
      cases hcs
      exact .nil
    | cons hab _ ih =>
      cases hcs with
      | cons hbc hcs => exact .cons ⟨_, hab, hbc⟩ (ih hcs)

/-- Of each item the next attempt gets back the part that the first one kept. -/
theorem mapM_of_mapM {γ : Type v} {g : α → Except ε β} {g' : β → Except ε γ} {p : α → γ} {as : List α}
    {bs : List β} (h : as.mapM g = .ok bs) (hg : ∀ a ∈ as, ∀ b, g a = .ok b → g' b = .ok (p a)) :
    bs.mapM g' = .ok (as.map p) := by
  induction as generalizing bs with
  | nil =>
    obtain rfl : bs = [] := List.forall₂_nil_left_iff.1 (mapM_eq_ok.1 h)
    rfl
  | cons a as ih =>
    obtain ⟨ha, hg⟩ := List.forall_mem_cons.1 hg
    obtain ⟨b, bs, hb, hbs, rfl⟩ := List.forall₂_cons_left_iff.1 (mapM_eq_ok.1 h)
    rw [List.mapM_cons, ha b hb, ok_bind, ih (mapM_eq_ok.2 hbs) hg]
    rfl

/-- What is undone item by item is undone for a whole list. -/
theorem mapM_inverse {g : α → Except ε β} {g' : β → Except ε α} {as : List α} {bs : List β}
    (h : as.mapM g = .ok bs) (hg : ∀ a ∈ as, ∀ b, g a = .ok b → g' b = .ok a) : bs.mapM g' = .ok as := by
  rw [mapM_of_mapM (p := id) h hg, List.map_id]

theorem exists_of_mem_mapM {g : α → Except ε β} {as : List α} {bs : List β} {b : β}
    (h : as.mapM g = .ok bs) (hb : b ∈ bs) : ∃ a ∈ as, g a = .ok b := by
  induction as generalizing bs with
  | nil =>
    obtain rfl : bs = [] := List.forall₂_nil_left_iff.1 (mapM_eq_ok.1 h)
    cases hb
  | cons a as ih =>
    obtain ⟨c, bs, hc, hbs, rfl⟩ := List.forall₂_cons_left_iff.1 (mapM_eq_ok.1 h)
    rcases List.mem_cons.1 hb with rfl | hb
    · exact ⟨a, List.mem_cons_self, hc⟩
    · obtain ⟨a', ha', hg⟩ := ih (mapM_eq_ok.2 hbs) hb
      exact ⟨a', List.mem_cons_of_mem a ha', hg⟩

theorem exists_result_of_mem {g : α → Except ε β} {as : List α} {bs : List β} {a : α}
    (h : as.mapM g = .ok bs) (ha : a ∈ as) : ∃ b ∈ bs, g a = .ok b := by
  induction as generalizing bs with
  | nil => cases ha
  | cons c as ih =>
    obtain ⟨b, bs, hc, hbs, rfl⟩ := List.forall₂_cons_left_iff.1 (mapM_eq_ok.1 h)
    rcases List.mem_cons.1 ha with rfl | ha
    · exact ⟨b, List.mem_cons_self, hc⟩
    · obtain ⟨b', hb', hg⟩ := ih (mapM_eq_ok.2 hbs) ha
      exact ⟨b', List.mem_cons_of_mem b hb', hg⟩

/-- What each result has in common with its item, all results have with all items. -/
theorem map_of_mapM {γ : Type w} {g : α → Except ε β} {p : β → γ} {q : α → γ} {as : List α} {bs : List β}
    (h : as.mapM g = .ok bs) (hg : ∀ a b, g a = .ok b → p b = q a) : bs.map p = as.map q := by
  have hall : List.Forall₂ (· = ·) (bs.map p) (as.map q) := by
    rw [List.forall₂_map_left_iff, List.forall₂_map_right_iff]
    exact ((mapM_eq_ok.1 h).imp hg).flip
  rwa [List.forall₂_eq_eq_eq] at hall

theorem exists_mapM_eq_ok {g : α → Except ε β} {as : List α} :
    (∃ bs, as.mapM g = .ok bs) ↔ ∀ a ∈ as, ∃ b, g a = .ok b := by
  induction as with
  | nil => simp
  | cons a as ih =>
    rw [List.forall_mem_cons, ← ih]
    simp only [List.mapM_cons, bind_eq_ok, pure_eq, Except.ok.injEq]
    constructor
    · rintro ⟨_, b, hb, bs, hbs, -⟩
      exact ⟨⟨b, hb⟩, bs, hbs⟩
    · rintro ⟨⟨b, hb⟩, bs, hbs⟩
      exact ⟨_, b, hb, bs, hbs, rfl⟩

/-- A list is gone through until the first item that fails. -/
theorem mapM_eq_error {g : α → Except ε β} {as : List α} {f : ε} :
    as.mapM g = .error f ↔ ∃ before a after, as = before ++ a :: after ∧
      (∀ c ∈ before, ∃ b, g c = .ok b) ∧ g a = .error f := by
  induction as with
  | nil => simp
  | cons a as ih =>
    simp only [List.mapM_cons, bind_eq_error, pure_eq, reduceCtorEq, and_false, exists_false, or_false, ih]
    constructor
    · rintro (ha | ⟨b, hb, before, a', after, rfl, hbefore, ha'⟩)
      · exact ⟨[], a, as, rfl, by simp, ha⟩
      · exact ⟨a :: before, a', after, rfl, List.forall_mem_cons.2 ⟨⟨b, hb⟩, hbefore⟩, ha'⟩
    · rintro ⟨before, a', after, has, hbefore, ha'⟩
      cases before with
      | nil =>
        obtain ⟨rfl, rfl⟩ := List.cons.inj has
        exact .inl ha'
      | cons c before =>
        obtain ⟨rfl, rfl⟩ := List.cons.inj has
        obtain ⟨⟨b, hb⟩, hbefore⟩ := List.forall_mem_cons.1 hbefore
        exact .inr ⟨b, hb, before, a', after, rfl, hbefore, ha'⟩

/-- What every step keeps is kept by the whole fold. -/
theorem foldlM_keeps {p : β → Prop} {g : β → α → Except ε β} {as : List α} {b b' : β}
    (hg : ∀ b a b', p b → g b a = .ok b' → p b') (hb : p b) (h : as.foldlM g b = .ok b') : p b' := by
  induction as generalizing b with
  | nil =>
    obtain rfl := Except.ok.inj h
    exact hb
  | cons a as ih =>
    rw [List.foldlM_cons] at h
    obtain ⟨c, hc, h⟩ := bind_eq_ok.1 h
    exact ih (hg b a c hb hc) h

theorem filterM_eq_ok {α : Type} {g : α → Except ε Bool} {p : α → Bool} {as : List α}
    (h : ∀ a ∈ as, g a = .ok (p a)) : as.filterM g = .ok (as.filter p) := by
  have haux : ∀ acc, as.filterAuxM g acc = .ok ((as.filter p).reverse ++ acc) := by
    induction as with
    | nil => exact fun acc => rfl
    | cons a as ih =>
      obtain ⟨ha, has⟩ := List.forall_mem_cons.1 h
      intro acc
      rw [List.filterAuxM, ha, ok_bind, ih has]
      cases hp : p a <;> simp [hp]
  unfold List.filterM
  rw [haux, ok_bind, List.append_nil, List.reverse_reverse]
  rfl

end CallTrace.Attempt
