import CallTrace.Proofs.Reconstruction.Visit
import CallTrace.Record.Cursor

namespace CallTrace
open Attempt

namespace Cursor

def Advances (c d : Cursor) : Prop := ∃ taken, c.ahead = taken ++ d.ahead ∧ d.behind = taken.reverse ++ c.behind

theorem Advances.refl (c : Cursor) : c.Advances c := ⟨[], rfl, rfl⟩

theorem Advances.trans {c d e : Cursor} (h : c.Advances d) (h' : d.Advances e) : c.Advances e := by
  obtain ⟨taken, hahead, hbehind⟩ := h
  obtain ⟨taken', hahead', hbehind'⟩ := h'
  exact ⟨taken ++ taken', by rw [hahead, hahead', List.append_assoc],
    by rw [hbehind', hbehind, List.reverse_append, List.append_assoc]⟩

theorem Advances.remaining_le {c d : Cursor} (h : c.Advances d) : d.remaining ≤ c.remaining := by
  obtain ⟨taken, hahead, -⟩ := h
  rw [remaining, remaining, hahead, List.length_append]
  exact Nat.le_add_left _ _

def skipSummary (depth : Nat) (c : Cursor) : Cursor :=
  match c.peek?, c.advance with
  | some (.summary _), .ok (_, d) => if depth = 1 then d else c
  | _, _ => c

theorem ahead_skipSummary (depth : Nat) (c : Cursor) :
    (c.skipSummary depth).ahead = Reconstruction.skipSummary depth c.ahead := by
  obtain ⟨behind, ahead⟩ := c
  rcases ahead with _ | ⟨_ | s, rs⟩
  · rfl
  · rfl
  · show (if depth = 1 then _ else _ : Cursor).ahead = if depth = 1 then _ else _
    split <;> rfl

theorem advances_skipSummary (depth : Nat) (c : Cursor) : c.Advances (c.skipSummary depth) := by
  obtain ⟨behind, ahead⟩ := c
  rcases ahead with _ | ⟨_ | s, rs⟩
  · exact .refl _
  · exact .refl _
  · show Advances _ (if depth = 1 then _ else _)
    split
    · exact ⟨[.summary s], rfl, rfl⟩
    · exact .refl _

theorem advance_of_ahead {c : Cursor} {r : Record} {left : List Record} (h : c.ahead = r :: left) :
    c.advance = .ok (r, ⟨r :: c.behind, left⟩) := by
  rw [advance, h]

theorem advances_of_ahead {c : Cursor} {r : Record} {left : List Record} (h : c.ahead = r :: left) :
    c.Advances ⟨r :: c.behind, left⟩ := ⟨[r], h, rfl⟩

end Cursor

namespace Reconstruction

/-- A call that is being read: what has happened in it so far, and the last step of its own. -/
structure Open where
  elements : List Trace.Element
  last : Option StepRecord

/-- The reading of a run before a turn of the loop: the call at hand, the calls around it from the inside out, the
last of them at depth `base`, and the read head. -/
structure State where
  base : Nat
  call : Open
  outer : List Open
  cursor : Cursor

/-- What a turn comes to: another one, or the trace of the last call and the read head behind it. -/
inductive Turn where
  | goesOn (s : State)
  | ends (t : Trace) (c : Cursor)

namespace State

def start (depth : Nat) (c : Cursor) : State := ⟨depth, ⟨[], none⟩, [], c⟩

def depth (s : State) : Nat := s.base + s.outer.length

def place (s : State) : Place := ⟨s.depth, s.call.last, s.cursor.ahead⟩

def enter (s : State) : State := { s with call := ⟨[], none⟩, outer := s.call :: s.outer }

def proceed (s : State) (r : StepRecord) (step : Step) (c : Cursor) : State :=
  { s with call := ⟨s.call.elements ++ [.step step], some r⟩, cursor := c }

def leave (s : State) (t : Trace) (c : Cursor) : Turn :=
  let t := s.call.elements.foldr .cons t
  match s.outer with
  | [] => .ends t c
  | around :: outer => .goesOn ⟨s.base, { around with elements := around.elements ++ [.call t] }, outer, c⟩

def resume (s : State) (inner : Trace) (c : Cursor) : State :=
  { s with call := { s.call with elements := s.call.elements ++ [.call inner] }, cursor := c }

theorem leave_enter (s : State) (t : Trace) (c : Cursor) : s.enter.leave t c = .goesOn (s.resume t c) := rfl

theorem leave_resume (s : State) (inner rest : Trace) (c d : Cursor) :
    (s.resume inner c).leave rest d = s.leave (.call inner rest) d := by
  unfold leave resume
  rw [List.foldr_append]
  rfl

theorem leave_proceed (s : State) (r : StepRecord) (step : Step) (rest : Trace) (c d : Cursor) :
    (s.proceed r step c).leave rest d = s.leave (.step step rest) d := by
  unfold leave proceed
  rw [List.foldr_append]
  rfl

variable [Limits]

def close (s : State) : Except Fault Turn := do
  let (o, bs) ← closing s.call.last
  return s.leave (.ended o bs) s.cursor

def turn (keep : Keep) (s : State) : Except Fault Turn :=
  match s.cursor.peek? with
  | none => s.close
  | some (.summary summary) =>
    if 1 < s.depth then s.close
    else do
      let (_, c) ← s.cursor.advance
      let (o, bs) ← summary.ending
      return s.leave (.ended o bs) c
  | some (.step r) =>
    if s.depth < r.depth then
      if Limits.admitsDepth 1 (s.depth + 1) then return .goesOn s.enter else throw .tooDeep
    else if r.depth < s.depth then s.close
    else match r.error with
      | some error => do
        let t ← halted keep r error
        let (_, c) ← s.cursor.advance
        return s.leave t (c.skipSummary s.depth)
      | none => do
        let step ← r.toStep keep
        let (_, c) ← s.cursor.advance
        return .goesOn (s.proceed r step c)

section
variable {keep : Keep} {s : State} {left : List Record}

theorem turn_of_stops (h : Stops s.depth s.cursor.ahead) : s.turn keep = s.close := by
  unfold turn Cursor.peek?
  generalize s.cursor.ahead = rs at h
  cases h with
  | nil => rfl
  | summary h => exact if_pos h
  | above h =>
    show (if _ then _ else if _ then _ else _) = _
    rw [if_neg (Nat.lt_asymm h), if_pos h]

theorem turn_summary {summary : Summary} (h : s.cursor.ahead = .summary summary :: left) (hd : s.depth ≤ 1) :
    s.turn keep = summary.ending.map fun e =>
      s.leave (.ended e.1 e.2) ⟨.summary summary :: s.cursor.behind, left⟩ := by
  unfold turn
  rw [Cursor.peek?, h]
  show (if _ then _ else _) = _
  rw [if_neg (Nat.not_lt.2 hd), Cursor.advance_of_ahead h, ok_bind]
  cases summary.ending <;> rfl

theorem turn_deeper {r : StepRecord} (h : s.cursor.ahead = .step r :: left) (hd : s.depth < r.depth) :
    s.turn keep = if Limits.admitsDepth 1 (s.depth + 1) then .ok (.goesOn s.enter) else .error .tooDeep := by
  unfold turn
  rw [Cursor.peek?, h]
  exact if_pos hd

theorem turn_error {r : StepRecord} {error : Json} (h : s.cursor.ahead = .step r :: left) (hd : r.depth = s.depth)
    (he : r.error = some error) :
    s.turn keep = (halted keep r error).map fun t =>
      s.leave t (Cursor.skipSummary s.depth ⟨.step r :: s.cursor.behind, left⟩) := by
  unfold turn
  rw [Cursor.peek?, h]
  show (if _ then _ else if _ then _ else _) = _
  rw [if_neg (Nat.not_lt.2 (Nat.le_of_eq hd)), if_neg (Nat.not_lt.2 (Nat.le_of_eq hd.symm)), he,
    Cursor.advance_of_ahead h]
  show (halted keep r error >>= _) = _
  cases halted keep r error <;> rfl

theorem turn_step {r : StepRecord} (h : s.cursor.ahead = .step r :: left) (hd : r.depth = s.depth)
    (he : r.error = none) :
    s.turn keep = (r.toStep keep).map fun step =>
      .goesOn (s.proceed r step ⟨.step r :: s.cursor.behind, left⟩) := by
  unfold turn
  rw [Cursor.peek?, h]
  show (if _ then _ else if _ then _ else _) = _
  rw [if_neg (Nat.not_lt.2 (Nat.le_of_eq hd)), if_neg (Nat.not_lt.2 (Nat.le_of_eq hd.symm)), he,
    Cursor.advance_of_ahead h]
  show (r.toStep keep >>= _) = _
  cases r.toStep keep <;> rfl

end

end State

section
variable [Limits] {keep : Keep} {s : State}

def Goes (keep : Keep) (s s' : State) : Prop := s.turn keep = .ok (.goesOn s')

abbrev Runs (keep : Keep) : State → State → Prop := Relation.ReflTransGen (Goes keep)

def runFor (keep : Keep) : Nat → State → Option (Except Fault (Trace × Cursor))
  | 0, _ => none
  | n + 1, s => match s.turn keep with
    | .error f => some (.error f)
    | .ok (.ends t c) => some (.ok (t, c))
    | .ok (.goesOn s') => runFor keep n s'

theorem goes_enter {r : StepRecord} {left : List Record} (h : s.cursor.ahead = .step r :: left)
    (hd : s.depth < r.depth) (hroom : Limits.admitsDepth 1 (s.depth + 1) = true) : Goes keep s s.enter :=
  (State.turn_deeper h hd).trans (if_pos hroom)

/-- A call that can be read is left in the end, with the rest of its trace and the read head behind its records. -/
theorem Reads.runs {depth : Nat} {last : Option StepRecord} {rs left : List Record} {t : Trace}
    (h : Reads keep depth last rs t left) (hs : s.place = ⟨depth, last, rs⟩) :
    ∃ s' c, Runs keep s s' ∧ s'.turn keep = .ok (s.leave t c) ∧ s.cursor.Advances c ∧ c.ahead = left := by
  induction h generalizing s with
  | closing hstops he =>
    obtain ⟨rfl, rfl, rfl⟩ := Place.mk.inj hs
    refine ⟨s, s.cursor, .refl, ?_, .refl s.cursor, rfl⟩
    rw [State.turn_of_stops hstops, State.close, he]
    rfl
  | summary hd he =>
    obtain ⟨rfl, rfl, hahead⟩ := Place.mk.inj hs
    refine ⟨s, _, .refl, ?_, Cursor.advances_of_ahead hahead, rfl⟩
    rw [State.turn_summary hahead hd, he, map_ok]
  | @call depth last r rs inner left₁ rest left hd hroom hinner hrest ihInner ihRest =>
    obtain ⟨rfl, rfl, hahead⟩ := Place.mk.inj hs
    obtain ⟨s₁, c₁, hruns₁, hturn₁, hadvances₁, rfl⟩ := ihInner (s := s.enter) (congrArg (Place.mk _ _) hahead)
    rw [State.leave_enter] at hturn₁
    obtain ⟨s₂, c₂, hruns₂, hturn₂, hadvances₂, rfl⟩ := ihRest (s := s.resume inner c₁) rfl
    rw [State.leave_resume] at hturn₂
    -- One turn leads into the inner call, its turns follow, and the last of them leads out again.
    have hruns : Runs keep s (s.resume inner c₁) := .tail (.head (goes_enter hahead hd hroom) hruns₁) hturn₁
    exact ⟨s₂, c₂, hruns.trans hruns₂, hturn₂, hadvances₁.trans hadvances₂, rfl⟩
  | error hd he ht =>
    obtain ⟨rfl, rfl, hahead⟩ := Place.mk.inj hs
    refine ⟨s, _, .refl, ?_, (Cursor.advances_of_ahead hahead).trans (Cursor.advances_skipSummary s.depth _),
      Cursor.ahead_skipSummary _ _⟩
    rw [State.turn_error hahead hd he, ht, map_ok]
  | @step depth last r rs step rest left hd he hstep hrest ih =>
    obtain ⟨rfl, rfl, hahead⟩ := Place.mk.inj hs
    have hgoes : Goes keep s (s.proceed r step ⟨.step r :: s.cursor.behind, rs⟩) := by
      rw [Goes, State.turn_step hahead hd he, hstep, map_ok]
    obtain ⟨s', c, hruns, hturn, hadvances, rfl⟩ := ih (s := s.proceed r step ⟨.step r :: s.cursor.behind, rs⟩) rfl
    rw [State.leave_proceed] at hturn
    exact ⟨s', c, hruns.head hgoes, hturn, (Cursor.advances_of_ahead hahead).trans hadvances, rfl⟩

theorem Moves.runs {q : Place} (h : Moves keep s.place q) : ∃ s', Runs keep s s' ∧ s'.place = q := by
  generalize hs : s.place = p at h
  cases h with
  | enter hd hroom =>
    obtain ⟨rfl, rfl, hahead⟩ := Place.mk.inj hs
    exact ⟨s.enter, .single (goes_enter hahead hd hroom), congrArg (Place.mk _ _) hahead⟩
  | @resume depth last r rs inner left hd hroom hinner =>
    obtain ⟨rfl, rfl, hahead⟩ := Place.mk.inj hs
    obtain ⟨s', c, hruns, hturn, -, rfl⟩ := hinner.runs (s := s.enter) (congrArg (Place.mk _ _) hahead)
    exact ⟨s.resume inner c, .tail (.head (goes_enter hahead hd hroom) hruns) hturn, rfl⟩
  | @next depth last r rs step hd he hstep =>
    obtain ⟨rfl, rfl, hahead⟩ := Place.mk.inj hs
    refine ⟨s.proceed r step ⟨.step r :: s.cursor.behind, rs⟩, .single ?_, rfl⟩
    rw [Goes, State.turn_step hahead hd he, hstep, map_ok]

theorem Reaches.runs {q : Place} (h : Reaches keep s.place q) : ∃ s', Runs keep s s' ∧ s'.place = q := by
  induction h with
  | refl => exact ⟨s, .refl, rfl⟩
  | tail hreach hmove ih =>
    obtain ⟨s₁, hruns₁, rfl⟩ := ih
    obtain ⟨s₂, hruns₂, hq⟩ := hmove.runs
    exact ⟨s₂, hruns₁.trans hruns₂, hq⟩

theorem Fails.turn_eq {f : Fault} (h : Fails keep s.place f) : s.turn keep = .error f := by
  generalize hs : s.place = p at h
  cases h with
  | tooDeep hd hroom =>
    obtain ⟨rfl, rfl, hahead⟩ := Place.mk.inj hs
    rw [State.turn_deeper hahead hd, hroom, if_neg Bool.false_ne_true]
  | closing hstops hf =>
    obtain ⟨rfl, rfl, rfl⟩ := Place.mk.inj hs
    rw [State.turn_of_stops hstops, State.close, hf, error_bind]
  | summary hd hf =>
    obtain ⟨rfl, rfl, hahead⟩ := Place.mk.inj hs
    rw [State.turn_summary hahead hd, hf, map_error]
  | error hd he hf =>
    obtain ⟨rfl, rfl, hahead⟩ := Place.mk.inj hs
    rw [State.turn_error hahead hd he, hf, map_error]
  | step hd he hf =>
    obtain ⟨rfl, rfl, hahead⟩ := Place.mk.inj hs
    rw [State.turn_step hahead hd he, hf, map_error]

theorem runFor_of_runs {s' : State} (h : Runs keep s s') (n : Nat) :
    ∃ m, runFor keep m s = runFor keep n s' := by
  induction h using Relation.ReflTransGen.head_induction_on with
  | refl => exact ⟨n, rfl⟩
  | head hgoes hruns ih =>
    obtain ⟨m, hm⟩ := ih
    refine ⟨m + 1, ?_⟩
    rw [← hm, runFor, hgoes]

theorem runFor_mono {m n : Nat} {result : Except Fault (Trace × Cursor)} (h : runFor keep m s = some result)
    (hmn : m ≤ n) : runFor keep n s = some result := by
  induction m generalizing n s with
  | zero => cases h
  | succ m ih =>
    obtain _ | n := n
    · cases hmn
    · rw [runFor] at h ⊢
      cases hturn : s.turn keep with
      | error f => rwa [hturn] at h
      | ok turn =>
        rw [hturn] at h
        cases turn with
        | ends t c => exact h
        | goesOn s' => exact ih h (Nat.le_of_succ_le_succ hmn)

/-- The loop comes to what `read` comes to. -/
theorem exists_runFor_start (keep : Keep) (depth : Nat) (c : Cursor) :
    ∃ n result, runFor keep n (.start depth c) = some result ∧
      result.map (fun p => (p.1, p.2.ahead)) = read keep depth none c.ahead := by
  have hplace : (State.start depth c).place = ⟨depth, none, c.ahead⟩ := rfl
  cases hread : read keep depth none c.ahead with
  | error f =>
    obtain ⟨q, hreach, hfails⟩ := exists_fails_of_read hread
    obtain ⟨s, hruns, rfl⟩ := (hplace ▸ hreach : Reaches keep (State.start depth c).place q).runs
    obtain ⟨n, hn⟩ := runFor_of_runs hruns 1
    refine ⟨n, .error f, ?_, rfl⟩
    rw [hn, runFor, hfails.turn_eq]
  | ok p =>
    obtain ⟨t, left⟩ := p
    obtain ⟨s, d, hruns, hturn, -, rfl⟩ := (reads_of_read hread).runs hplace
    obtain ⟨n, hn⟩ := runFor_of_runs hruns 1
    refine ⟨n, .ok (t, d), ?_, rfl⟩
    rw [hn, runFor, hturn]
    rfl

end

end Reconstruction

end CallTrace
