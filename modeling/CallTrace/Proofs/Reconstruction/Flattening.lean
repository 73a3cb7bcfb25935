import CallTrace.Proofs.Reconstruction.Reading
import CallTrace.Proofs.Reconstruction.Tree

namespace CallTrace.Reconstruction
open Attempt

variable {keep : Keep} {depth : Nat} {final : Option Final} {last : Option (Plain keep depth)}
  {t : Tree keep depth} {after left : List Record}

theorem Halt.raised?_eq (h : Halt keep depth) : raised? keep h.record h.outcome = .ok h.step? := by
  have hsome := h.isSome_step?
  unfold raised?
  cases hs : h.step? with
  | none =>
    rw [hs, Option.isSome_none] at hsome
    rw [← hsome, if_neg Bool.false_ne_true]
  | some s =>
    rw [hs, Option.isSome_some] at hsome
    rw [← hsome, if_pos rfl, h.toStep_eq s hs, map_ok]

theorem Halt.halted_trace (h : Halt keep depth) : halted keep h.record (.text h.text) = .ok h.trace := by
  have ho : Outcome.ofExecutionError (.text h.text) = .ok h.outcome := h.outcome_eq
  rw [halted_eq, ho, ok_bind, h.raised?_eq, ok_bind, h.output_eq, ok_bind]
  rfl

theorem Plain.closing_eq {p : Plain keep depth} {o : Outcome} {bs : Octets} (he : p.end? = some (o, bs))
    (hroom : ¬ p.Overruns) : @closing .unbounded (some p.record) = .ok (o, bs) :=
  StepRecord.ending_unbounded (StepRecord.memory_of_toStep p.toStep_eq) he hroom

theorem Plain.closing_of_overruns {p : Plain keep depth} (h : p.Overruns) :
    @closing .unbounded (some p.record) = .error .countTooLarge :=
  @StepRecord.ending_of_overruns _ _ .unbounded (StepRecord.memory_of_toStep p.toStep_eq) h

/-- What may stand behind the records of a call whose end is implied or not, and what of it the call
leaves. -/
inductive Behind (depth : Nat) : Option Final → Bool → List Record → List Record → Prop where
  | summary {f : Final} {implied : Bool} {left : List Record} (h : depth = 1) :
    Behind depth (some f) implied (.summary f.record :: left) left
  | records {implied : Bool} {after : List Record} (hskip : skipSummary depth after = after)
    (hstops : implied = true → Stops depth after) : Behind depth none implied after after

/-- What stands behind a call within another one ends it where no error has. -/
theorem Behind.inner {inner : Tree keep (depth + 1)} {rest : Tree keep depth} (hpos : 0 < depth)
    (hnext : inner.isImplied = true → rest.startsWithCall = false)
    (h : Behind depth final rest.isImplied after left) :
    Behind (depth + 1) none inner.isImplied (rest.flatten ++ after) (rest.flatten ++ after) := by
  refine .records (skipSummary_of_lt (by omega) _) fun himplied => ?_
  -- The next record is one of the call around it, or one that ends that call too.
  cases rest with
  | ended o bs =>
    cases h with
    | summary h => exact .summary (by omega)
    | records hskip hstops => exact (hstops rfl).deeper
  | halts e => exact .above (Nat.lt_succ_of_le (Nat.le_of_eq e.depth_eq))
  | step p rest => exact .above (Nat.lt_succ_of_le (Nat.le_of_eq p.depth_eq))
  | call inner' rest => cases hnext himplied

/-- The records of a call within another one are read first, then those behind it. -/
theorem read_call {inner : Tree keep (depth + 1)} (hinner : inner.WellFormed none none)
    (last : Option StepRecord) (rs : List Record) :
    @read .unbounded keep depth last (inner.flatten ++ rs) = do
      let inner ← @read .unbounded keep (depth + 1) none (inner.flatten ++ rs)
      let rest ← @read .unbounded keep depth last inner.2
      return (.call inner.1 rest.1, rest.2) := by
  obtain ⟨r, rs', hflat, hd⟩ := hinner.flatten_eq rfl rfl
  rw [hflat, List.cons_append, @read_deeper .unbounded _ _ _ _ _ hd]
  rfl

/-- A call that fits gets its own trace back from its records. -/
theorem read_flatten (h : t.WellFormed final last) (hpos : 0 < depth) (hroom : ¬ t.Overruns final last)
    (hbehind : Behind depth final t.isImplied after left) :
    @read .unbounded keep depth (last.map Plain.record) (t.flatten ++ after) = .ok (t.trace, left) := by
  let _ : Limits := .unbounded
  -- The records of a call are read up to what stands behind them, whatever that is.
  induction h generalizing after left with
  | final f =>
    cases hbehind with
    | summary h =>
      rw [Tree.flatten, List.nil_append, read_summary (Nat.le_of_eq h), f.ending_eq, map_ok, Tree.trace]
  | @implied depth p o bs he =>
    cases hbehind with
    | records hskip hstops =>
      have hfits : ¬ p.Overruns := fun hp => hroom ⟨rfl, p, rfl, hp⟩
      rw [Tree.flatten, List.nil_append, read_of_stops (hstops rfl), Option.map_some, p.closing_eq he hfits,
        map_ok, Tree.trace]
  | @halts depth final last h =>
    have hleft : skipSummary depth after = left := by
      cases hbehind with
      | summary h => exact if_pos h
      | records hskip hstops => exact hskip
    rw [Tree.flatten, List.singleton_append, read_error h.depth_eq h.error_eq, h.halted_trace, map_ok, hleft,
      Tree.trace]
  | @step depth final last p rest hrest ih =>
    have hread := ih hpos hroom hbehind
    rw [Option.map_some] at hread
    rw [Tree.flatten, List.cons_append, read_step p.depth_eq p.error_eq, p.toStep_eq, ok_bind, hread, ok_bind,
      pure_eq, Tree.trace]
  | @call depth final last inner rest hinner hrest hnext ihInner ihRest =>
    obtain ⟨hroomInner, hroomRest⟩ := not_or.1 hroom
    have hreadInner := ihInner (Nat.succ_pos _) hroomInner (Behind.inner hpos hnext hbehind)
    have hreadRest := ihRest hpos hroomRest hbehind
    rw [Option.map_none] at hreadInner
    rw [Tree.flatten, List.append_assoc, read_call hinner, hreadInner, ok_bind, hreadRest, ok_bind, pure_eq,
      Tree.trace]

/-- A call in which some call does not fit has no trace. -/
theorem read_flatten_of_overruns (h : t.WellFormed final last) (hpos : 0 < depth)
    (hover : t.Overruns final last) (hbehind : Behind depth final t.isImplied after left) :
    @read .unbounded keep depth (last.map Plain.record) (t.flatten ++ after) = .error .countTooLarge := by
  let _ : Limits := .unbounded
  induction h generalizing after left with
  | final f => cases hover.1
  | @implied depth p o bs he =>
    obtain ⟨-, p', hp, hover⟩ := hover
    obtain rfl := Option.some.inj hp
    cases hbehind with
    | records hskip hstops =>
      rw [Tree.flatten, List.nil_append, read_of_stops (hstops rfl), Option.map_some,
        Plain.closing_of_overruns hover, map_error]
  | halts h => exact hover.elim
  | @step depth final last p rest hrest ih =>
    have hread := ih hpos hover hbehind
    rw [Option.map_some] at hread
    rw [Tree.flatten, List.cons_append, read_step p.depth_eq p.error_eq, p.toStep_eq, ok_bind, hread,
      error_bind]
  | @call depth final last inner rest hinner hrest hnext ihInner ihRest =>
    have hinside := Behind.inner hpos hnext hbehind
    rw [Tree.flatten, List.append_assoc, read_call hinner]
    -- The fault comes up within the inner call, or behind it if that one can be read.
    by_cases hroom : inner.Overruns none none
    · have hread := ihInner (Nat.succ_pos _) hroom hinside
      rw [Option.map_none] at hread
      rw [hread, error_bind]
    · have hread := read_flatten hinner (Nat.succ_pos _) hroom hinside
      rw [Option.map_none] at hread
      rw [hread, ok_bind, ihRest hpos (hover.resolve_left hroom) hbehind, error_bind]

theorem behind_flatRun (final : Option Final) (t : Tree keep 1) :
    Behind 1 final t.isImplied (final.map fun f => Record.summary f.record).toList [] := by
  cases final with
  | none => exact .records rfl fun _ => .nil
  | some f => exact .summary rfl

theorem ofRecords_flatRun {t : Tree keep 1} (h : t.WellFormed final none) (hroom : ¬ t.Overruns final none) :
    @ofRecords .unbounded keep (flatRun final t) = .ok t.trace := by
  rw [@ofRecords_eq_ok .unbounded, filter_flatRun]
  exact @reads_of_read .unbounded _ _ _ _ _ _ (read_flatten h Nat.one_pos hroom (behind_flatRun final t))

theorem ofRecords_flatRun_of_overruns {t : Tree keep 1} (h : t.WellFormed final none)
    (hover : t.Overruns final none) :
    @ofRecords .unbounded keep (flatRun final t) = .error .countTooLarge := by
  have hread := read_flatten_of_overruns h Nat.one_pos hover (behind_flatRun final t)
  refine @ofRecords_of_read_error .unbounded _ _ _ ?_ ?_
  · rw [filter_flatRun]
    exact flatRun_ne_nil h
  · rw [filter_flatRun]
    exact hread

/-- The trace rebuilt from the flat records of a run is the tree of its calls, unless some call that ends by
its own last step gives back more octets beyond the end of its memory than can be counted. Such a run has no
trace: the count alone is refused. -/
theorem ofLines_flatRun {lines : List Line} {t : Tree keep 1} (h : t.WellFormed final none)
    (hlines : Record.ofLines lines = .ok (flatRun final t)) :
    (@ofLines .unbounded keep lines = .ok t.trace ↔ ¬ t.Overruns final none) ∧
      (t.Overruns final none → @ofLines .unbounded keep lines = .error .countTooLarge) := by
  have hof : @ofLines .unbounded keep lines = @ofRecords .unbounded keep (flatRun final t) := by
    unfold ofLines
    rw [hlines, ok_bind]
  rw [hof]
  refine ⟨⟨fun hok hover => ?_, ofRecords_flatRun h⟩, ofRecords_flatRun_of_overruns h⟩
  rw [ofRecords_flatRun_of_overruns h hover] at hok
  cases hok

def logFields (depth : Nat) (op : Int) (stack : List Json) (error : Text) : Fields :=
  [("depth", .int depth), ("gas", .text "0x10"), ("op", .int op), ("pc", .int 0), ("stack", .list stack),
    ("error", .text error)]

def logRecord (depth : Nat) (op : Int) (stack : List Json) (error : Text) : StepRecord :=
  ⟨0, op, depth, .text "0x10", stack, none, none, Json.given? (.text error), none,
    logFields depth op stack error⟩

def plainStep (depth : Nat) (op : Int) : Plain defaultKeep depth :=
  ⟨logRecord depth op [] "", ⟨0, op, depth, 16, 0, [], [], .empty⟩, rfl, rfl, rfl⟩

def failedJump : Halt defaultKeep 2 :=
  ⟨logRecord 2 0x56 [] "invalid jump destination", "invalid jump destination", .invalidJumpdest, [],
    some ⟨0, 0x56, 2, 16, 0, [], [], .empty⟩, rfl, rfl, by decide, rfl, rfl, rfl,
    fun _ h => Option.some.inj h ▸ rfl⟩

def failedLoad : Halt defaultKeep 3 :=
  ⟨logRecord 3 0x54 [] "out of gas", "out of gas", .outOfGas, [], none, rfl, rfl, by decide, rfl, rfl, rfl,
    nofun⟩

/-- Two calls one after the other, which fail; the first one starts with a call that fails at once. -/
def failedCalls : Tree defaultKeep 1 :=
  .step (plainStep 1 0xF1) <| .call (.call (.halts failedLoad) <| .halts failedJump) <|
    .call (.halts failedJump) <| .step (plainStep 1 0) <| .ended .return []

def failedCallsLog : List Line := [
  .value (.object (logFields 1 0xF1 [] "")),
  .value (.object (logFields 3 0x54 [] "out of gas")),
  .value (.object (logFields 2 0x56 [] "invalid jump destination")),
  .value (.object (logFields 2 0x56 [] "invalid jump destination")),
  .value (.object (logFields 1 0 [] ""))]

theorem wellFormed_failedCalls : failedCalls.WellFormed none none :=
  .step <| .call (.call (.halts _) (.halts _) nofun) (.call (.halts _) (.step (.implied rfl)) nofun) nofun

theorem not_overruns_failedCalls : ¬ failedCalls.Overruns none none := by
  rintro (h | h | ⟨-, p, hp, hop, -⟩)
  · exact h.elim id id
  · exact h
  · cases hp
    revert hop
    decide

theorem ofLines_failedCallsLog :
    failedCalls.WellFormed none none ∧ Record.ofLines failedCallsLog = .ok (flatRun none failedCalls) ∧
      @ofLines .unbounded defaultKeep failedCallsLog = .ok failedCalls.trace :=
  ⟨wellFormed_failedCalls, rfl,
    (ofLines_flatRun wellFormed_failedCalls rfl).1.2 not_overruns_failedCalls⟩

def overlongStep : Plain defaultKeep 2 :=
  ⟨logRecord 2 0xF3 [.text "0x8000000000000000", .text "0x0"] "",
    ⟨0, 0xF3, 2, 16, 2, [0x8000000000000000, 0], [], .empty⟩, rfl, rfl, rfl⟩

def overlongReturn : Tree defaultKeep 1 :=
  .step (plainStep 1 0xF1) <|
    .call (.step overlongStep <| .ended .return (Memory.range [] 0 0x8000000000000000)) <|
      .step (plainStep 1 0) <| .ended .return []

def overlongReturnLog : List Line := [
  .value (.object (logFields 1 0xF1 [] "")),
  .value (.object (logFields 2 0xF3 [.text "0x8000000000000000", .text "0x0"] "")),
  .value (.object (logFields 1 0 [] ""))]

theorem ofLines_overlongReturnLog :
    overlongReturn.WellFormed none none ∧
      Record.ofLines overlongReturnLog = .ok (flatRun none overlongReturn) ∧
      @ofLines .unbounded defaultKeep overlongReturnLog = .error .countTooLarge ∧
      @ofLines .unbounded defaultKeep overlongReturnLog ≠ .ok overlongReturn.trace := by
  have hwell : overlongReturn.WellFormed none none :=
    .step <| .call (.step (.implied rfl)) (.step (.implied rfl)) fun _ => rfl
  have hover : overlongReturn.Overruns none none :=
    .inl ⟨rfl, _, rfl, .inl rfl, 0, 0x8000000000000000, rfl, by decide, by decide, by decide⟩
  have herror : @ofLines .unbounded defaultKeep overlongReturnLog = .error .countTooLarge :=
    ofRecords_flatRun_of_overruns hwell hover
  refine ⟨hwell, rfl, herror, ?_⟩
  rw [herror]
  nofun

end CallTrace.Reconstruction
