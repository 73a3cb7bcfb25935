import CallTrace.Record.Cursor

namespace CallTrace.Cursor

inductive Move where
  | peek
  | advance
  | backtrack

def Move.lands (size position : Nat) : Move → Nat
  | .peek => position
  | .advance => min (position + 1) size
  | .backtrack => position - 1

/-- The answer to a move and the read head after it. After a move that fails it is the read head before. -/
def ask (c : Cursor) : Move → Except Fault (Option Record) × Cursor
  | .peek => (.ok c.peek?, c)
  | .advance => match c.advance with
    | .ok (r, d) => (.ok (some r), d)
    | .error f => (.error f, c)
  | .backtrack => match c.backtrack with
    | .ok d => (.ok none, d)
    | .error f => (.error f, c)

structure Event where
  move : Move
  answer : Except Fault (Option Record)

namespace Event

def wentOn : Event → Bool
  | ⟨.advance, .ok _⟩ => true
  | _ => false

def wentBack : Event → Bool
  | ⟨.backtrack, .ok _⟩ => true
  | _ => false

end Event

def session (c : Cursor) : List Move → List Event × Cursor
  | [] => ([], c)
  | m :: moves =>
    let (answer, d) := c.ask m
    let (events, last) := d.session moves
    (⟨m, answer⟩ :: events, last)

/-- The move fails for a reason that counts against the log, and the read head stays where it is. -/
def Refuses (c : Cursor) (m : Move) (f : Fault) : Prop :=
  c.ask m = (.error f, c) ∧ f.family? = some .malformedTrace

theorem size_eq_length_records (c : Cursor) : c.size = c.records.length := by
  rw [size, records, List.length_append, List.length_reverse]

theorem position_add_remaining (c : Cursor) : c.position + c.remaining = c.size := rfl

theorem position_le_size (c : Cursor) : c.position ≤ c.size := Nat.le_add_right _ _

theorem atEnd_iff (c : Cursor) : c.atEnd = true ↔ c.remaining = 0 := by
  rw [atEnd, remaining, List.isEmpty_iff, List.length_eq_zero_iff]

theorem peek?_eq_none_iff (c : Cursor) : c.peek? = none ↔ c.atEnd = true := by
  rw [peek?, atEnd, List.head?_eq_none_iff, List.isEmpty_iff]

theorem peek?_eq_getElem? (c : Cursor) : c.peek? = c.records[c.position]? := by
  have hbehind : c.behind.reverse.length ≤ c.position := Nat.le_of_eq List.length_reverse
  rw [peek?, records, List.getElem?_append_right hbehind, List.length_reverse, position, Nat.sub_self,
    List.head?_eq_getElem?]

theorem advance_of_peek? {c : Cursor} {r : Record} (h : c.peek? = some r) :
    ∃ d, c.ask .advance = (.ok (some r), d) ∧ d.position = c.position + 1 ∧ d.ask .backtrack = (.ok none, c) := by
  obtain ⟨behind, ahead⟩ := c
  obtain ⟨left, rfl⟩ : ∃ left, ahead = r :: left := List.head?_eq_some_iff.1 h
  exact ⟨⟨r :: behind, left⟩, rfl, rfl, rfl⟩

theorem refuses_advance {c : Cursor} (h : c.atEnd = true) : c.Refuses .advance .pastEnd := by
  obtain ⟨behind, ahead⟩ := c
  obtain rfl : ahead = [] := List.isEmpty_iff.1 h
  exact ⟨rfl, rfl⟩

theorem backtrack_of_position_pos {c : Cursor} (h : 0 < c.position) :
    ∃ r d, c.ask .backtrack = (.ok none, d) ∧ d.position + 1 = c.position ∧ d.ask .advance = (.ok (some r), c) := by
  obtain ⟨behind, ahead⟩ := c
  obtain ⟨r, before, rfl⟩ : ∃ r before, behind = r :: before :=
    List.exists_cons_of_ne_nil (List.ne_nil_of_length_pos h)
  exact ⟨r, ⟨before, r :: ahead⟩, rfl, rfl, rfl⟩

theorem refuses_backtrack {c : Cursor} (h : c.position = 0) : c.Refuses .backtrack .beforeStart := by
  obtain ⟨behind, ahead⟩ := c
  obtain rfl : behind = [] := List.length_eq_zero_iff.1 h
  exact ⟨rfl, rfl⟩

theorem records_ask (c : Cursor) (m : Move) : (c.ask m).2.records = c.records := by
  cases m with
  | peek => rfl
  | advance =>
    unfold ask
    cases h : c.advance with
    | error f => rfl
    | ok p => exact records_advance h
  | backtrack =>
    unfold ask
    cases h : c.backtrack with
    | error f => rfl
    | ok d => exact records_backtrack h

theorem position_ask (c : Cursor) (m : Move) : (c.ask m).2.position = m.lands c.size c.position := by
  obtain ⟨behind, ahead⟩ := c
  cases m with
  | peek => rfl
  | advance =>
    cases ahead with
    | nil => exact (Nat.min_eq_right (Nat.le_succ _)).symm
    | cons r left => exact (Nat.min_eq_left (Nat.add_le_add_left (Nat.le_add_left 1 _) _)).symm
  | backtrack =>
    cases behind with
    | nil => rfl
    | cons r before => rfl

/-- A move that comes off goes by one record, and a move that fails by none. -/
theorem position_ask_add (c : Cursor) (m : Move) :
    (c.ask m).2.position + (if Event.wentBack ⟨m, (c.ask m).1⟩ = true then 1 else 0) =
      c.position + (if Event.wentOn ⟨m, (c.ask m).1⟩ = true then 1 else 0) := by
  obtain ⟨behind, ahead⟩ := c
  cases m with
  | peek => rfl
  | advance => cases ahead <;> rfl
  | backtrack => cases behind <;> rfl

structure Head where
  records : List Record
  position : Nat

def head (c : Cursor) : Head := ⟨c.records, c.position⟩

/-- A move of a read head that is changed in place. What has been changed before a fault stays changed. -/
def Head.move : Move → ExceptT Fault (StateM Head) (Option Record)
  | .peek => do
    let h ← get
    return h.records[h.position]?
  | .advance => do
    let h ← get
    if h.records.length ≤ h.position then throw .pastEnd
    set { h with position := h.position + 1 }
    return h.records[h.position]?
  | .backtrack => do
    let h ← get
    if h.position = 0 then throw .beforeStart
    set { h with position := h.position - 1 }
    return none

theorem Head.run_advance (h : Head) : (Head.move .advance).run.run h =
    if h.records.length ≤ h.position then (.error .pastEnd, h)
    else (.ok h.records[h.position]?, { h with position := h.position + 1 }) := by
  show StateT.run (ExceptT.run (if h.records.length ≤ h.position then _ else _)) h = _
  split <;> rfl

theorem Head.run_backtrack (h : Head) : (Head.move .backtrack).run.run h =
    if h.position = 0 then (.error .beforeStart, h) else (.ok none, { h with position := h.position - 1 }) := by
  show StateT.run (ExceptT.run (if h.position = 0 then _ else _)) h = _
  split <;> rfl

/-- Changed in place, a read head answers alike and comes to stand alike: no fault comes after a change. -/
theorem head_ask (c : Cursor) (m : Move) : (Head.move m).run.run c.head = ((c.ask m).1, (c.ask m).2.head) := by
  have hpeek : c.head.records[c.head.position]? = c.peek? := c.peek?_eq_getElem?.symm
  have hremaining : c.records.length = c.position + c.ahead.length := c.size_eq_length_records.symm
  cases m with
  | peek => exact congrArg (fun r => (Except.ok r, c.head)) hpeek
  | advance =>
    rw [Head.run_advance, hpeek]
    -- The position is at the end just if nothing is shown.
    cases hlook : c.peek? with
    | none =>
      have hend := (c.peek?_eq_none_iff).1 hlook
      rw [(refuses_advance hend).1, if_pos]
      show c.records.length ≤ c.position
      rw [hremaining, List.isEmpty_iff.1 hend, List.length_nil]
      exact Nat.le_refl _
    | some r =>
      obtain ⟨d, hd, hposition, -⟩ := advance_of_peek? hlook
      have hrecords := c.records_ask .advance
      rw [hd] at hrecords ⊢
      have hahead : 0 < c.ahead.length := by
        obtain ⟨left, hleft⟩ := List.head?_eq_some_iff.1 hlook
        simp [hleft]
      rw [if_neg (show ¬ c.head.records.length ≤ c.head.position by simp only [head]; omega)]
      show (Except.ok (some r), Head.mk c.records (c.position + 1)) = (Except.ok (some r), Head.mk d.records d.position)
      rw [hposition]
      exact congrArg (Except.ok (some r), Head.mk · _) hrecords.symm
  | backtrack =>
    rw [Head.run_backtrack]
    by_cases hstart : c.position = 0
    · rw [(refuses_backtrack hstart).1, if_pos (show c.head.position = 0 from hstart)]
    · obtain ⟨r, d, hd, hposition, -⟩ := backtrack_of_position_pos (Nat.pos_of_ne_zero hstart)
      have hrecords := c.records_ask .backtrack
      rw [hd] at hrecords ⊢
      rw [if_neg (show ¬ c.head.position = 0 from hstart)]
      have hback : c.position - 1 = d.position := by omega
      show (Except.ok none, Head.mk c.records (c.position - 1)) = (Except.ok none, Head.mk d.records d.position)
      rw [hback]
      exact congrArg (Except.ok none, Head.mk · _) hrecords.symm

def Head.session (h : Head) : List Move → List Event × Head
  | [] => ([], h)
  | m :: moves =>
    let (answer, next) := (Head.move m).run.run h
    let (events, last) := next.session moves
    (⟨m, answer⟩ :: events, last)

/-- So whole sessions are the same. -/
theorem head_session (c : Cursor) (moves : List Move) :
    c.head.session moves = ((c.session moves).1, (c.session moves).2.head) := by
  induction moves generalizing c with
  | nil => rfl
  | cons m moves ih =>
    unfold Head.session
    rw [head_ask]
    exact congrArg (fun p : List Event × Head => (⟨m, (c.ask m).1⟩ :: p.1, p.2)) (ih (c.ask m).2)

theorem session_cons (c : Cursor) (m : Move) (moves : List Move) : c.session (m :: moves) =
    (⟨m, (c.ask m).1⟩ :: ((c.ask m).2.session moves).1, ((c.ask m).2.session moves).2) := rfl

theorem records_session (c : Cursor) (moves : List Move) : (c.session moves).2.records = c.records := by
  induction moves generalizing c with
  | nil => rfl
  | cons m moves ih => exact (ih _).trans (c.records_ask m)

theorem position_session (c : Cursor) (moves : List Move) :
    (c.session moves).2.position = moves.foldl (Move.lands c.size) c.position := by
  induction moves generalizing c with
  | nil => rfl
  | cons m moves ih =>
    -- All moves stop short at the size of the first read head, which the read heads after it share.
    have hsize : (c.ask m).2.size = c.size := by
      rw [size_eq_length_records, records_ask, size_eq_length_records]
    rw [List.foldl_cons, ← position_ask, ← hsize]
    exact ih _

/-- A session leads on by the moves on that came off, less the moves back that did. -/
theorem position_session_add (c : Cursor) (moves : List Move) :
    (c.session moves).2.position + (c.session moves).1.countP Event.wentBack =
      c.position + (c.session moves).1.countP Event.wentOn := by
  induction moves generalizing c with
  | nil => rfl
  | cons m moves ih =>
    have hstep := c.position_ask_add m
    have hrest := ih (c.ask m).2
    simp only [session_cons, List.countP_cons]
    omega

/-- After any moves, a read head put over records stands among those of them that are no markers, at the position
that the moves lead to if they stop short at either end. It shows the record there, or nothing at the end. It goes
on past what it shows and back again to where it was, and at an end it refuses and stays. -/
theorem session_ofRecords (rs : List Record) (moves : List Move) :
    let kept := rs.filter (!·.isMarker)
    let events := ((ofRecords rs).session moves).1
    let c := ((ofRecords rs).session moves).2
    (c.records = kept ∧ c.size = kept.length ∧ c.position ≤ c.size ∧ c.position + c.remaining = c.size) ∧
    (c.peek? = kept[c.position]? ∧ (c.peek? = none ↔ c.atEnd = true) ∧ (c.atEnd = true ↔ c.remaining = 0) ∧
      c.ask .peek = (.ok c.peek?, c)) ∧
    ((∀ r, c.peek? = some r → ∃ d, c.ask .advance = (.ok (some r), d) ∧ d.position = c.position + 1 ∧
        d.ask .backtrack = (.ok none, c)) ∧
      (c.atEnd = true → c.Refuses .advance .pastEnd)) ∧
    ((0 < c.position → ∃ r d, c.ask .backtrack = (.ok none, d) ∧ d.position + 1 = c.position ∧
        d.ask .advance = (.ok (some r), c)) ∧
      (c.position = 0 → c.Refuses .backtrack .beforeStart)) ∧
    c.position + events.countP Event.wentBack = events.countP Event.wentOn ∧
    c.position = moves.foldl (Move.lands kept.length) 0 := by
  intro kept events c
  have hrecords : c.records = kept := records_session (ofRecords rs) moves
  have hsize : (ofRecords rs).size = kept.length := Nat.zero_add _
  refine ⟨⟨hrecords, ?_, c.position_le_size, c.position_add_remaining⟩,
    ⟨?_, c.peek?_eq_none_iff, c.atEnd_iff, rfl⟩, ⟨fun r => advance_of_peek?, refuses_advance⟩,
    ⟨backtrack_of_position_pos, refuses_backtrack⟩, ?_, ?_⟩
  · rw [size_eq_length_records, hrecords]
  · rw [← hrecords]
    exact c.peek?_eq_getElem?
  · exact (position_session_add (ofRecords rs) moves).trans (Nat.zero_add _)
  · rw [← hsize]
    exact position_session (ofRecords rs) moves

def markedRun : List Record := [
  .step ⟨0, 0xFD, 1, .int 9, [], none, none, none, none, []⟩,
  .step ⟨0, 0xFD, 1, .int 9, [], none, none, some (.text "execution reverted"), none, []⟩,
  .summary ⟨none, some (.text "execution reverted"), []⟩]

theorem session_ofRecords_markedRun :
    let after := fun moves => ((ofRecords markedRun).session moves).2
    (∃ d, (after [.peek, .advance]).ask .advance = (.ok markedRun[2]?, d) ∧ d.position = 2 ∧
      d.ask .backtrack = (.ok none, after [.peek, .advance])) ∧
    (after [.advance, .advance, .advance]).Refuses .advance .pastEnd ∧
    (∃ r d, (after [.advance, .advance]).ask .backtrack = (.ok none, d) ∧ d.position + 1 = 2 ∧
      d.ask .advance = (.ok (some r), after [.advance, .advance])) ∧
    (after [.backtrack, .advance, .backtrack]).Refuses .backtrack .beforeStart := by
  intro after
  obtain ⟨-, -, ⟨hadvance, -⟩, -⟩ := session_ofRecords markedRun [.peek, .advance]
  obtain ⟨-, -, ⟨-, hpastEnd⟩, -⟩ := session_ofRecords markedRun [.advance, .advance, .advance]
  obtain ⟨-, -, -, ⟨hbacktrack, -⟩, -⟩ := session_ofRecords markedRun [.advance, .advance]
  obtain ⟨-, -, -, ⟨-, hbeforeStart⟩, -⟩ := session_ofRecords markedRun [.backtrack, .advance, .backtrack]
  exact ⟨hadvance _ rfl, hpastEnd rfl, hbacktrack (by decide), hbeforeStart rfl⟩

end CallTrace.Cursor
