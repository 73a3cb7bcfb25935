import CallTrace.Proofs.Reconstruction.Loop

namespace CallTrace

namespace Cursor

theorem Advances.mem_ahead {c d : Cursor} (h : c.Advances d) {r : Record} (hr : r ∈ d.ahead) : r ∈ c.ahead := by
  obtain ⟨taken, hahead, -⟩ := h
  exact hahead ▸ List.mem_append_right taken hr

theorem remaining_lt_of_ahead {c : Cursor} {r : Record} {left : List Record} (h : c.ahead = r :: left) :
    Cursor.remaining ⟨r :: c.behind, left⟩ < c.remaining := by
  rw [remaining, remaining, h]
  exact Nat.lt_succ_self _

end Cursor

namespace Reconstruction
open Attempt

/-- What becomes of the depth and of the read head in a turn: it enters a call, takes in a record, or leaves a
call by what its last step tells. -/
inductive Moved (s s' : State) : Prop where
  | enters {r : StepRecord} {left : List Record} (hahead : s.cursor.ahead = .step r :: left)
    (hbelow : s.depth < r.depth) (hdepth : s'.depth = s.depth + 1) (hcursor : s'.cursor = s.cursor)
  | takes (hdepth : s'.depth ≤ s.depth) (hadvances : s.cursor.Advances s'.cursor)
    (hless : s'.cursor.remaining < s.cursor.remaining)
  | infers (hdepth : s'.depth + 1 = s.depth) (hcursor : s'.cursor = s.cursor) (hstops : Stops s.depth s.cursor.ahead)

theorem Moved.advances {s s' : State} (h : Moved s s') : s.cursor.Advances s'.cursor := by
  cases h with
  | enters _ _ _ hcursor => exact hcursor ▸ .refl _
  | takes _ hadvances _ => exact hadvances
  | infers _ hcursor _ => exact hcursor ▸ .refl _

theorem State.of_leave {s s' : State} {t : Trace} {c : Cursor} (h : s.leave t c = .goesOn s') :
    s'.depth + 1 = s.depth ∧ s'.cursor = c := by
  unfold leave at h
  cases houter : s.outer with
  | nil =>
    rw [houter] at h
    cases h
  | cons around outer =>
    rw [houter] at h
    cases h
    exact ⟨by rw [depth, depth, houter]; rfl, rfl⟩

theorem State.depth_proceed (s : State) (r : StepRecord) (step : Step) (c : Cursor) :
    (s.proceed r step c).depth = s.depth := rfl

section
variable [Limits] {keep : Keep} {s s' : State}

theorem Goes.moved_of_summary {summary : Summary} {left : List Record} (h : Goes keep s s')
    (hahead : s.cursor.ahead = .summary summary :: left) (hd : s.depth ≤ 1) : Moved s s' := by
  rw [Goes, State.turn_summary hahead hd] at h
  obtain ⟨e, -, h⟩ := map_eq_ok.1 h
  obtain ⟨hdepth, hcursor⟩ := State.of_leave h
  refine .takes (by omega) ?_ ?_
  · exact hcursor ▸ Cursor.advances_of_ahead hahead
  · exact hcursor ▸ Cursor.remaining_lt_of_ahead hahead

theorem Goes.moved_of_deeper {r : StepRecord} {left : List Record} (h : Goes keep s s')
    (hahead : s.cursor.ahead = .step r :: left) (hd : s.depth < r.depth) : Moved s s' := by
  rw [Goes, State.turn_deeper hahead hd] at h
  split at h
  · cases h
    exact .enters hahead hd rfl rfl
  · cases h

theorem Goes.moved_of_step {r : StepRecord} {left : List Record} (h : Goes keep s s')
    (hahead : s.cursor.ahead = .step r :: left) (hd : r.depth = s.depth) : Moved s s' := by
  have hadvances := Cursor.advances_of_ahead hahead
  have hless := Cursor.remaining_lt_of_ahead hahead
  rw [Goes] at h
  cases he : r.error with
  | none =>
    rw [State.turn_step hahead hd he] at h
    obtain ⟨step, -, h⟩ := map_eq_ok.1 h
    cases h
    exact .takes (Nat.le_of_eq (s.depth_proceed r step _)) hadvances hless
  | some error =>
    rw [State.turn_error hahead hd he] at h
    obtain ⟨t, -, h⟩ := map_eq_ok.1 h
    obtain ⟨hdepth, hcursor⟩ := State.of_leave h
    have hskips := Cursor.advances_skipSummary s.depth ⟨.step r :: s.cursor.behind, left⟩
    refine .takes (by omega) ?_ ?_
    · exact hcursor ▸ hadvances.trans hskips
    · exact hcursor ▸ Nat.lt_of_le_of_lt hskips.remaining_le hless

theorem Goes.moved (h : Goes keep s s') : Moved s s' := by
  by_cases hstops : Stops s.depth s.cursor.ahead
  · rw [Goes, State.turn_of_stops hstops] at h
    obtain ⟨e, -, h⟩ := bind_eq_ok.1 h
    obtain ⟨hdepth, hcursor⟩ := State.of_leave (Except.ok.inj h)
    exact .infers hdepth hcursor hstops
  · cases hahead : s.cursor.ahead with
    | nil => exact absurd (hahead ▸ .nil) hstops
    | cons r left =>
      cases r with
      | summary summary =>
        exact h.moved_of_summary hahead (Nat.not_lt.1 fun hd => hstops (hahead ▸ .summary hd))
      | step r =>
        rcases Nat.lt_trichotomy r.depth s.depth with hd | hd | hd
        · exact absurd (hahead ▸ .above hd) hstops
        · exact h.moved_of_step hahead hd
        · exact h.moved_of_deeper hahead hd

/-- The read head never moves back. -/
theorem Runs.advances (h : Runs keep s s') : s.cursor.Advances s'.cursor := by
  induction h with
  | refl => exact .refl _
  | tail _ hgoes ih => exact ih.trans hgoes.moved.advances

/-- What is read within a call that a record begins has taken in the record, or lies between it and the call
around it. -/
theorem Runs.taken_or_within {r : StepRecord} {left : List Record} {depth : Nat} (h : Runs keep s s')
    (hahead : s.cursor.ahead = .step r :: left) (hd : depth < s.depth) (hr : s.depth ≤ r.depth) :
    s'.cursor.remaining < s.cursor.remaining ∨
      s'.cursor = s.cursor ∧ depth < s'.depth ∧ s'.depth ≤ r.depth := by
  induction h with
  | refl => exact .inr ⟨rfl, hd, hr⟩
  | @tail s₁ s₂ _ hgoes ih =>
    have hle := hgoes.moved.advances.remaining_le
    obtain hless | ⟨hsame, hd₁, hr₁⟩ := ih
    · exact .inl (Nat.lt_of_le_of_lt hle hless)
    have hahead₁ : s₁.cursor.ahead = .step r :: left := hsame ▸ hahead
    cases hgoes.moved with
    | enters hahead₂ hbelow hdepth hcursor =>
      cases hahead₁.symm.trans hahead₂
      exact .inr ⟨hcursor.trans hsame, by omega, by omega⟩
    | takes _ _ hless => exact .inl (hsame ▸ hless)
    | infers hdepth hcursor hstops =>
      -- The record lies at least as deep as the call, so the call cannot be left before it.
      rw [hahead₁] at hstops
      cases hstops with
      | above habove => omega

/-- A call that is entered is left behind one record at least. -/
theorem Goes.remaining_lt_of_runs {inner : State} (h : Goes keep s inner) (henters : inner.depth = s.depth + 1)
    (hruns : Runs keep inner s') (hback : s'.depth ≤ s.depth) : s'.cursor.remaining < s.cursor.remaining := by
  cases h.moved with
  | enters hahead hbelow _ hcursor =>
    rw [← hcursor] at hahead ⊢
    obtain hless | ⟨-, hd, -⟩ := hruns.taken_or_within hahead (Nat.lt_of_lt_of_eq (Nat.lt_succ_self _) henters.symm)
      (by omega)
    · exact hless
    · omega
  | takes hdepth _ _ => omega
  | infers hdepth _ _ => omega

end

def deepest : List Record → Nat
  | [] => 0
  | .step r :: rs => max r.depth (deepest rs)
  | .summary _ :: rs => deepest rs

theorem depth_le_deepest {r : StepRecord} {rs : List Record} (h : .step r ∈ rs) : r.depth ≤ deepest rs := by
  induction rs with
  | nil => cases h
  | cons next rs ih =>
    rcases List.mem_cons.1 h with hnext | hlater
    · subst hnext
      exact Nat.le_max_left _ _
    · cases next with
      | step r' => exact Nat.le_trans (ih hlater) (Nat.le_max_right _ _)
      | summary _ => exact ih hlater

namespace State

structure Within (bound : Nat) (s : State) : Prop where
  depth_le : s.depth ≤ bound
  ahead_le {r : StepRecord} (h : .step r ∈ s.cursor.ahead) : r.depth ≤ bound

theorem within_start (depth : Nat) (c : Cursor) : (start depth c).Within (max depth (deepest c.ahead)) :=
  ⟨Nat.le_max_left _ _, fun h => Nat.le_trans (depth_le_deepest h) (Nat.le_max_right _ _)⟩

/-- How many calls lie between the call at hand and the record ahead, or around the call if nothing is ahead that
belongs within a call. -/
def way (s : State) : Nat :=
  match s.cursor.ahead with
  | .step r :: _ => (r.depth - s.depth) + (s.depth - r.depth)
  | _ => s.depth

theorem way_step {s : State} {r : StepRecord} {left : List Record} (h : s.cursor.ahead = .step r :: left) :
    s.way = (r.depth - s.depth) + (s.depth - r.depth) := by rw [way, h]

theorem Within.way_le {bound : Nat} {s : State} (h : s.Within bound) : s.way ≤ bound := by
  unfold way
  split
  next r left hahead =>
    have hr := h.ahead_le (hahead ▸ List.mem_cons_self)
    have hd := h.depth_le
    omega
  next => exact h.depth_le

/-- What is left to do: a record to come stands for more turns than there are calls to enter or to leave
before it. -/
def toDo (bound : Nat) (s : State) : Nat := s.cursor.remaining * (bound + 1) + s.way

theorem Within.toDo_lt {bound : Nat} {s : State} (h : s.Within bound) :
    s.toDo bound < (s.cursor.remaining + 1) * (bound + 1) := by
  have hway := h.way_le
  rw [toDo, Nat.add_mul, Nat.one_mul]
  omega

theorem way_lt_of_stops {s s' : State} (hstops : Stops s.depth s.cursor.ahead) (hdepth : s'.depth + 1 = s.depth)
    (hcursor : s'.cursor = s.cursor) : s'.way < s.way := by
  unfold way
  rw [hcursor]
  generalize s.cursor.ahead = rs at hstops
  cases hstops with
  | nil => exact Nat.lt_of_lt_of_eq (Nat.lt_succ_self _) hdepth
  | summary _ => exact Nat.lt_of_lt_of_eq (Nat.lt_succ_self _) hdepth
  | above habove =>
    show _ + _ < _ + _
    omega

end State

section
variable [Limits] {keep : Keep} {bound : Nat} {s s' : State}

theorem Goes.within (h : Goes keep s s') (hs : s.Within bound) : s'.Within bound := by
  refine ⟨?_, fun hr => hs.ahead_le (h.moved.advances.mem_ahead hr)⟩
  have hd := hs.depth_le
  cases h.moved with
  | enters hahead hbelow hdepth _ =>
    have hr := hs.ahead_le (hahead ▸ List.mem_cons_self)
    omega
  | takes hdepth _ _ => omega
  | infers hdepth _ _ => omega

theorem Runs.within (h : Runs keep s s') (hs : s.Within bound) : s'.Within bound := by
  induction h with
  | refl => exact hs
  | tail _ hgoes ih => exact hgoes.within ih

theorem Goes.toDo_lt (h : Goes keep s s') (hs : s.Within bound) : s'.toDo bound < s.toDo bound := by
  cases h.moved with
  | enters hahead hbelow hdepth hcursor =>
    rw [State.toDo, State.toDo, State.way_step hahead, State.way_step (hcursor ▸ hahead), hcursor]
    omega
  | takes _ _ hless =>
    -- However far it is to the next record, that is less than what the record stood for that was taken in.
    have hlt := (h.within hs).toDo_lt
    have hle := Nat.mul_le_mul_right (bound + 1) (Nat.succ_le_of_lt hless)
    exact Nat.lt_of_lt_of_le (Nat.lt_of_lt_of_le hlt hle) (Nat.le_add_right _ _)
  | infers hdepth hcursor hstops =>
    have hway := State.way_lt_of_stops hstops hdepth hcursor
    rw [State.toDo, State.toDo, hcursor]
    exact Nat.add_lt_add_left hway _

/-- The loop ends within as many turns as there is left to do. -/
theorem exists_runFor_of_toDo_lt (keep : Keep) {n : Nat} (hs : s.Within bound) (hn : s.toDo bound < n) :
    ∃ result, runFor keep n s = some result := by
  induction n generalizing s with
  | zero => exact absurd hn (Nat.not_lt_zero _)
  | succ n ih =>
    rw [runFor]
    cases hturn : s.turn keep with
    | error f => exact ⟨.error f, rfl⟩
    | ok turn =>
      cases turn with
      | ends t c => exact ⟨.ok (t, c), rfl⟩
      | goesOn s' =>
        have hgoes : Goes keep s s' := hturn
        exact ih (hgoes.within hs) (Nat.lt_of_lt_of_le (hgoes.toDo_lt hs) (Nat.le_of_lt_succ hn))

theorem runFor_start (keep : Keep) (depth : Nat) (c : Cursor) :
    ∃ result, runFor keep ((c.remaining + 1) * (max depth (deepest c.ahead) + 1)) (.start depth c) = some result ∧
      result.map (fun p => (p.1, p.2.ahead)) = read keep depth none c.ahead := by
  have hwithin := State.within_start depth c
  obtain ⟨result, hresult⟩ := exists_runFor_of_toDo_lt keep hwithin hwithin.toDo_lt
  obtain ⟨n, result', hresult', hread⟩ := exists_runFor_start keep depth c
  have hboth := (runFor_mono hresult (Nat.le_max_left _ n)).symm.trans (runFor_mono hresult' (Nat.le_max_right _ n))
  cases Option.some.inj hboth
  exact ⟨result, hresult, hread⟩

theorem Goes.stops_of_infers (h : Goes keep s s') (hdepth : s'.depth + 1 = s.depth) (hcursor : s'.cursor = s.cursor) :
    Stops s.depth s'.cursor.ahead := by
  cases h.moved with
  | enters _ _ hdepth' _ => omega
  | takes _ _ hless => exact absurd hless (hcursor ▸ Nat.lt_irrefl _)
  | infers _ _ hstops => exact hcursor ▸ hstops

/-- The reading of a call ends, from any place of the read head and at any depth, within a number of turns that
the records bound, and comes to what `read` comes to. On the way it is never within more calls than the deepest
record, and the read head never moves back. Each call that is entered and left has taken in a record at least, and
one that is left by what its last step tells is left at the end, before a summary or before a record of a call
around it. -/
theorem loop_ends (keep : Keep) (depth : Nat) (c : Cursor) :
    (∃ result, runFor keep ((c.remaining + 1) * (max depth (deepest c.ahead) + 1)) (.start depth c) = some result ∧
      result.map (fun p => (p.1, p.2.ahead)) = read keep depth none c.ahead) ∧
    ∀ s, Runs keep (.start depth c) s →
      s.depth ≤ max depth (deepest c.ahead) ∧ c.Advances s.cursor ∧
      (∀ inner s', Goes keep s inner → inner.depth = s.depth + 1 → Runs keep inner s' → s'.depth = s.depth →
        s.cursor.Advances s'.cursor ∧ s'.cursor.remaining < s.cursor.remaining) ∧
      ∀ s', Goes keep s s' → s'.depth + 1 = s.depth → s'.cursor = s.cursor → Stops s.depth s'.cursor.ahead := by
  refine ⟨runFor_start keep depth c, fun s hruns => ⟨?_, hruns.advances, ?_, ?_⟩⟩
  · exact (hruns.within (State.within_start depth c)).depth_le
  · intro inner s' henter hdepth hinner hback
    exact ⟨henter.moved.advances.trans hinner.advances, henter.remaining_lt_of_runs hdepth hinner (Nat.le_of_eq hback)⟩
  · exact fun s' hgoes => hgoes.stops_of_infers

end

def stoppedCall : Cursor := .ofRecords [
  .step ⟨0, 0xF1, 1, .int 9, [], none, none, none, none, []⟩,
  .step ⟨0, 0, 2, .int 8, [], none, none, none, none, []⟩,
  .step ⟨1, 0, 1, .int 2, [], none, none, none, none, []⟩]

theorem stoppedCall_loop_ends : ∃ s inner s', @Runs .unbounded defaultKeep (.start 1 stoppedCall) s ∧
    @Goes .unbounded defaultKeep s inner ∧ inner.depth = s.depth + 1 ∧ @Runs .unbounded defaultKeep inner s' ∧
    s'.depth = s.depth ∧ s'.cursor.remaining < s.cursor.remaining := by
  let _ : Limits := .unbounded
  refine ⟨_, _, _, .single rfl, rfl, rfl, .tail (.single rfl) rfl, rfl, ?_⟩
  have hturns := (loop_ends defaultKeep 1 stoppedCall).2 _ (.single rfl)
  exact (hturns.2.2.1 _ _ rfl rfl (.tail (.single rfl) rfl) rfl).2

end Reconstruction

end CallTrace
