import CallTrace.Proofs.Attempt
import CallTrace.Reconstruction

namespace CallTrace.Reconstruction
open Attempt

def raised? (keep : Keep) (r : StepRecord) (o : Outcome) : Except Fault (Option Step) :=
  if o.isPostError = true then (r.toStep keep).map some else .ok none

/-- The end of a frame by an error: the error is read first, then the step if it belongs there, then what the
step leaves behind. -/
theorem halted_eq (keep : Keep) (r : StepRecord) (e : Json) : halted keep r e = (do
    let o ← Outcome.ofExecutionError e
    let step? ← raised? keep r o
    let bs ← r.outputOctets
    .ok (match step? with
      | some s => .step s (.ended o bs)
      | none => .ended o bs)) := by
  unfold halted
  cases Outcome.ofExecutionError e with
  | error f => rfl
  | ok o =>
    rw [ok_bind, ok_bind, raised?]
    split <;> rfl

theorem halted_eq_ok {keep : Keep} {r : StepRecord} {e : Json} {t : Trace} (h : halted keep r e = .ok t) :
    ∃ o bs, Outcome.ofExecutionError e = .ok o ∧ r.outputOctets = .ok bs ∧
      ((o.isPostError = true ∧ ∃ s, r.toStep keep = .ok s ∧ t = .step s (.ended o bs)) ∨
        o.isPostError = false ∧ t = .ended o bs) := by
  rw [halted_eq] at h
  obtain ⟨o, ho, h⟩ := bind_eq_ok.1 h
  obtain ⟨step?, hstep, h⟩ := bind_eq_ok.1 h
  obtain ⟨bs, hbs, h⟩ := bind_eq_ok.1 h
  refine ⟨o, bs, ho, hbs, ?_⟩
  unfold raised? at hstep
  by_cases hpost : o.isPostError = true
  · rw [if_pos hpost] at hstep
    obtain ⟨s, hs, rfl⟩ := map_eq_ok.1 hstep
    exact .inl ⟨hpost, s, hs, (Except.ok.inj h).symm⟩
  · rw [if_neg hpost] at hstep
    cases hstep
    exact .inr ⟨Bool.eq_false_iff.2 hpost, (Except.ok.inj h).symm⟩

theorem skipSummary_suffix (depth : Nat) (rs : List Record) : skipSummary depth rs <:+ rs := by
  unfold skipSummary
  split
  · split
    · exact List.suffix_cons _ _
    · exact List.suffix_refl _
  · exact List.suffix_refl _

theorem skipSummary_of_lt {depth : Nat} (h : 1 < depth) (rs : List Record) : skipSummary depth rs = rs := by
  unfold skipSummary
  split
  · rw [if_neg (by omega)]
  · rfl

theorem skipSummary_of_unsummed {depth : Nat} {rs : List Record} (h : ∀ s, .summary s ∉ rs) :
    skipSummary depth rs = rs := by
  unfold skipSummary
  split
  · exact absurd List.mem_cons_self (h _)
  · rfl

/-- Where a frame has to end by its last step: behind all records, before the summary of a call around it,
and before a step of such a call. -/
inductive Stops (depth : Nat) : List Record → Prop where
  | nil : Stops depth []
  | summary {s : Summary} {rs : List Record} (h : 1 < depth) : Stops depth (.summary s :: rs)
  | above {r : StepRecord} {rs : List Record} (h : r.depth < depth) : Stops depth (.step r :: rs)

theorem Stops.deeper {depth : Nat} {rs : List Record} (h : Stops depth rs) : Stops (depth + 1) rs := by
  cases h with
  | nil => exact .nil
  | summary h => exact .summary (Nat.lt_succ_of_lt h)
  | above h => exact .above (Nat.lt_succ_of_lt h)

variable [Limits] {keep : Keep} {depth : Nat} {last : Option StepRecord} {rs left : List Record}

def read (keep : Keep) (depth : Nat) (last : Option StepRecord) (rs : List Record) :
    Except Fault (Trace × List Record) := (frame keep depth last rs).map Subtype.val

def closing : Option StepRecord → Except Fault (Outcome × Octets)
  | none => .error (.unexpectedEnd none)
  | some r => r.ending

theorem map_infer (last : Option StepRecord) (rs : List Record) :
    (infer last rs).map Subtype.val = (closing last).map fun e => (.ended e.1 e.2, rs) := by
  cases last with
  | none => rfl
  | some r =>
    show ((r.ending >>= fun e => _) : Except Fault _).map Subtype.val = r.ending.map _
    cases r.ending <;> rfl

theorem read_of_stops (h : Stops depth rs) :
    read keep depth last rs = (closing last).map fun e => (.ended e.1 e.2, rs) := by
  unfold read
  rw [← map_infer, frame.eq_def]
  cases h with
  | nil => rfl
  | summary h => simp only [if_pos h]
  | above h => simp only [if_neg (Nat.lt_asymm h), if_pos h]

theorem read_summary (h : depth ≤ 1) (s : Summary) :
    read keep depth last (.summary s :: left) = s.ending.map fun e => (.ended e.1 e.2, left) := by
  unfold read
  rw [frame.eq_def]
  simp only [if_neg (Nat.not_lt.2 h)]
  cases s.ending <;> rfl

theorem read_deeper {r : StepRecord} (h : depth < r.depth) :
    read keep depth last (.step r :: left) =
      if Limits.admitsDepth 1 (depth + 1) then do
        let inner ← read keep (depth + 1) none (.step r :: left)
        let rest ← read keep depth last inner.2
        return (.call inner.1 rest.1, rest.2)
      else .error .tooDeep := by
  unfold read
  rw [frame.eq_def]
  simp only [if_pos h]
  cases Limits.admitsDepth 1 (depth + 1) with
  | false => rfl
  | true =>
    cases frame keep (depth + 1) none (.step r :: left) with
    | error f => rfl
    | ok inner =>
      obtain ⟨⟨t, rs⟩, hrs⟩ := inner
      simp only [Bool.not_true, Bool.false_eq_true, if_false, if_true, map_ok, ok_bind]
      cases frame keep depth last rs <;> rfl

theorem read_error {r : StepRecord} {error : Json} (h : r.depth = depth) (he : r.error = some error) :
    read keep depth last (.step r :: left) =
      (halted keep r error).map fun t => (t, skipSummary depth left) := by
  subst h
  unfold read
  rw [frame.eq_def]
  simp only [if_neg (Nat.lt_irrefl _)]
  simp only [he]
  cases halted keep r error <;> rfl

theorem read_step {r : StepRecord} (h : r.depth = depth) (he : r.error = none) :
    read keep depth last (.step r :: left) = do
      let s ← r.toStep keep
      let rest ← read keep depth (some r) left
      return (.step s rest.1, rest.2) := by
  subst h
  unfold read
  rw [frame.eq_def]
  simp only [if_neg (Nat.lt_irrefl _)]
  rw [he]
  cases r.toStep keep with
  | error f => rfl
  | ok s => cases frame keep r.depth (some r) left <;> rfl

theorem leaves_of_read {t : Trace} (h : read keep depth last rs = .ok (t, left)) : Leaves last rs left := by
  obtain ⟨⟨f, hf⟩, -, rfl⟩ := map_eq_ok.1 h
  exact hf

/-- Induction along the reading of a frame: a call within it first, then what stands behind the call. -/
theorem frame_induction (keep : Keep) {motive : Nat → Option StepRecord → List Record → Prop}
    (stops : ∀ depth last rs, Stops depth rs → motive depth last rs)
    (summary : ∀ depth last s left, depth ≤ 1 → motive depth last (.summary s :: left))
    (deeper : ∀ depth last r left, depth < r.depth → motive (depth + 1) none (.step r :: left) →
      (∀ t left₁, read keep (depth + 1) none (.step r :: left) = .ok (t, left₁) →
        motive depth last left₁) → motive depth last (.step r :: left))
    (error : ∀ depth last r left e, r.depth = depth → r.error = some e →
      motive depth last (.step r :: left))
    (step : ∀ depth last r left, r.depth = depth → r.error = none → motive depth (some r) left →
      motive depth last (.step r :: left))
    (depth : Nat) (last : Option StepRecord) (rs : List Record) : motive depth last rs :=
  match rs with
  | [] => stops depth last [] .nil
  | .summary s :: left =>
    if h : 1 < depth then stops depth last _ (.summary h)
    else summary depth last s left (Nat.le_of_not_lt h)
  | .step r :: left =>
    if h : depth < r.depth then
      deeper depth last r left h
        (frame_induction keep stops summary deeper error step (depth + 1) none (.step r :: left))
        fun _ left₁ hr =>
          have := (leaves_of_read hr).2 rfl
          frame_induction keep stops summary deeper error step depth last left₁
    else if h' : r.depth < depth then stops depth last _ (.above h')
    else
      have hd : r.depth = depth := Nat.le_antisymm (Nat.le_of_not_lt h) (Nat.le_of_not_lt h')
      match he : r.error with
      | some e => error depth last r left e hd he
      | none =>
        step depth last r left hd he
          (frame_induction keep stops summary deeper error step depth (some r) left)
-- A call is entered without taking a record: what shrinks then is how far the next record lies below.
termination_by (rs.length, gap depth rs)
decreasing_by
  · right; simp only [gap]; omega
  · left; assumption
  · left; simp

/-- The frame of a call at a depth, the step before being `last`, has the trace `t` and leaves the records
`left`. -/
inductive Reads (keep : Keep) :
    Nat → Option StepRecord → List Record → Trace → List Record → Prop where
  | closing {depth last rs o bs} (hs : Stops depth rs) (he : closing last = .ok (o, bs)) :
    Reads keep depth last rs (.ended o bs) rs
  | summary {depth last s left o bs} (hd : depth ≤ 1) (he : s.ending = .ok (o, bs)) :
    Reads keep depth last (.summary s :: left) (.ended o bs) left
  | call {depth last r rs inner left₁ rest left} (hd : depth < r.depth)
    (hroom : Limits.admitsDepth 1 (depth + 1) = true)
    (hinner : Reads keep (depth + 1) none (.step r :: rs) inner left₁)
    (hrest : Reads keep depth last left₁ rest left) :
    Reads keep depth last (.step r :: rs) (.call inner rest) left
  | error {depth last r left e t} (hd : r.depth = depth) (he : r.error = some e)
    (ht : halted keep r e = .ok t) :
    Reads keep depth last (.step r :: left) t (skipSummary depth left)
  | step {depth last r rs s rest left} (hd : r.depth = depth) (he : r.error = none)
    (hs : r.toStep keep = .ok s) (hrest : Reads keep depth (some r) rs rest left) :
    Reads keep depth last (.step r :: rs) (.step s rest) left

theorem reads_of_read {t : Trace} (h : read keep depth last rs = .ok (t, left)) :
    Reads keep depth last rs t left := by
  induction depth, last, rs using frame_induction keep generalizing t left with
  | stops depth last rs hs =>
    rw [read_of_stops hs, map_eq_ok] at h
    obtain ⟨e, he, hte⟩ := h
    cases hte
    exact .closing hs he
  | summary depth last s left' hd =>
    rw [read_summary hd, map_eq_ok] at h
    obtain ⟨e, he, hte⟩ := h
    cases hte
    exact .summary hd he
  | deeper depth last r rs hd ihInner ihRest =>
    rw [read_deeper hd] at h
    by_cases hroom : Limits.admitsDepth 1 (depth + 1) = true
    · rw [if_pos hroom] at h
      simp only [bind_eq_ok, pure_eq, Except.ok.injEq] at h
      obtain ⟨⟨inner, left₁⟩, hinner, ⟨rest, left₂⟩, hrest, hte⟩ := h
      cases hte
      exact .call hd hroom (ihInner hinner) (ihRest inner left₁ hinner hrest)
    · rw [if_neg hroom] at h
      cases h
  | error depth last r rs e hd he =>
    rw [read_error hd he, map_eq_ok] at h
    obtain ⟨t, ht, hte⟩ := h
    cases hte
    exact .error hd he ht
  | step depth last r rs hd he ih =>
    simp only [read_step hd he, bind_eq_ok, pure_eq, Except.ok.injEq] at h
    obtain ⟨s, hs, ⟨rest, left₁⟩, hrest, hte⟩ := h
    cases hte
    exact .step hd he hs (ih hrest)

theorem read_of_reads {t : Trace} (h : Reads keep depth last rs t left) :
    read keep depth last rs = .ok (t, left) := by
  induction h with
  | closing hs he => rw [read_of_stops hs, he, map_ok]
  | summary hd he => rw [read_summary hd, he, map_ok]
  | call hd hroom hinner hrest ihInner ihRest =>
    rw [read_deeper hd, if_pos hroom, ihInner, ok_bind, ihRest, ok_bind, pure_eq]
  | error hd he ht => rw [read_error hd he, ht, map_ok]
  | step hd he hs hrest ih => rw [read_step hd he, hs, ok_bind, ih, ok_bind, pure_eq]

theorem Reads.suffix {t : Trace} (h : Reads keep depth last rs t left) : left <:+ rs := by
  induction h with
  | closing hs he => exact List.suffix_refl _
  | summary hd he => exact List.suffix_cons _ _
  | call hd hroom hinner hrest ihInner ihRest => exact ihRest.trans ihInner
  | error hd he ht => exact (skipSummary_suffix _ _).trans (List.suffix_cons _ _)
  | step hd he hs hrest ih => exact ih.trans (List.suffix_cons _ _)

/-- What is read of the whole run, and what is left of it. -/
theorem ofRecords_eq (keep : Keep) (rs : List Record) :
    ofRecords keep rs =
      let rs := rs.filter (!·.isMarker)
      if rs.isEmpty then .error .noRecords
      else read keep 1 none rs >>= fun p => match p.2 with
        | [] => .ok p.1
        | next :: left => .error (.leftOver (left.length + 1) next.source) := by
  unfold ofRecords read
  simp only
  split
  · rfl
  · cases frame keep 1 none (rs.filter (!·.isMarker)) with
    | error f => rfl
    | ok p =>
      obtain ⟨⟨t, left⟩, hleft⟩ := p
      cases left <;> rfl

theorem ofRecords_eq_ok {t : Trace} :
    ofRecords keep rs = .ok t ↔ Reads keep 1 none (rs.filter (!·.isMarker)) t [] := by
  rw [ofRecords_eq]
  simp only
  constructor
  · intro h
    split at h
    · cases h
    · obtain ⟨⟨t', left⟩, hread, h⟩ := bind_eq_ok.1 h
      cases left with
      | nil => exact reads_of_read (by rw [hread, ← Except.ok.inj h])
      | cons next left => cases h
  · intro h
    split
    · rename_i he
      rw [List.isEmpty_iff.1 he] at h
      cases h
      contradiction
    · rw [read_of_reads h, ok_bind]

theorem ofRecords_of_read_error {f : Fault} (hne : rs.filter (!·.isMarker) ≠ [])
    (h : read keep 1 none (rs.filter (!·.isMarker)) = .error f) : ofRecords keep rs = .error f := by
  simp only [ofRecords_eq, List.isEmpty_eq_false_iff.2 hne, Bool.false_eq_true, if_false, h, error_bind]

theorem ofLines_eq_ok {lines : List Line} {t : Trace} :
    ofLines keep lines = .ok t ↔
      ∃ rs, Record.ofLines lines = .ok rs ∧ Reads keep 1 none (rs.filter (!·.isMarker)) t [] := by
  simp only [ofLines, bind_eq_ok, ofRecords_eq_ok]

end CallTrace.Reconstruction
