import CallTrace.Proofs.Hex.Digits
import CallTrace.Proofs.Json.Fields
import CallTrace.Proofs.Reconstruction.Account
import CallTrace.Proofs.Reconstruction.Ending

namespace CallTrace

theorem Outcome.hasData_eq_true {o : Outcome} : o.hasData = true ↔ o = .return ∨ o = .revert := by
  cases o <;> simp [hasData]

namespace Record
open Attempt

/-- Lines are read one part after the other, with the numbers that they have in the whole log. -/
theorem ofLinesFrom_append (n : Nat) (lines more : List Line) :
    ofLinesFrom n (lines ++ more) = (do
      let rs ← ofLinesFrom n lines
      let rs' ← ofLinesFrom (n + lines.length) more
      .ok (rs ++ rs')) := by
  induction lines generalizing n with
  | nil =>
    show ofLinesFrom n more = ofLinesFrom n more >>= fun rs => .ok ([] ++ rs)
    cases ofLinesFrom n more <;> rfl
  | cons line lines ih =>
    have hplace : n + 1 + lines.length = n + (line :: lines).length := by rw [List.length_cons]; omega
    rw [List.cons_append, ofLinesFrom, ofLinesFrom, ih, hplace]
    cases ofLine? n line with
    | error f => rfl
    | ok r? =>
      cases ofLinesFrom (n + 1) lines with
      | error f => rfl
      | ok rs =>
        simp only [ok_bind, pure_eq]
        cases ofLinesFrom (n + (line :: lines).length) more with
        | error f => rfl
        | ok rs' => simp only [ok_bind, List.append_assoc]

def finalOf (fields : Fields) : Summary := ⟨given? fields "output", given? fields "error", fields⟩

/-- An object with an output and without a program counter is a final record. -/
theorem ofLine?_final {n : Nat} {line : Line} {fields : Fields}
    (hline : line.read? n = .ok (some (.object fields))) (hpc : fields.has "pc" = false)
    (houtput : fields.has "output" = true) : ofLine? n line = .ok (some (.summary (finalOf fields))) := by
  unfold ofLine?
  rw [hline, ok_bind]
  simp only [ofJson, hpc, houtput, Bool.false_eq_true, if_false, if_true, ok_bind, pure_eq, finalOf]

end Record

namespace Reconstruction
open Attempt

def HaltsLast (rs : List Record) : Prop :=
  ∃ r, rs.getLast? = some (.step r) ∧ r.depth = 1 ∧ r.error ≠ none

/-- What halts the outermost call does not stand among records of other calls or steps without an error. -/
theorem haltsLast_append_iff {rs rs' : List Record}
    (h : ∀ r, .step r ∈ rs → ¬ (r.depth = 1 ∧ r.error ≠ none)) : HaltsLast (rs ++ rs') ↔ HaltsLast rs' := by
  unfold HaltsLast
  rw [List.getLast?_append]
  cases hlast : rs'.getLast? with
  | some r => rw [Option.some_or]
  | none =>
    rw [Option.none_or]
    refine iff_of_false ?_ (by simp)
    rintro ⟨r, hr, hd, he⟩
    exact h r (List.mem_of_getLast? hr) ⟨hd, he⟩

theorem haltsLast_singleton {r : StepRecord} (hd : r.depth = 1) (he : r.error ≠ none) :
    HaltsLast [.step r] := ⟨r, rfl, hd, he⟩

theorem hasData_of_halted {keep : Keep} {r : StepRecord} {e : Json} {t : Trace} (hr : r.isMarker = false)
    (he : r.error = some e) (h : halted keep r e = .ok t) : t.outcome.hasData = false := by
  rw [← Bool.not_eq_true, Outcome.hasData_eq_true, not_or]
  obtain ⟨o, bs, ho, -, ⟨-, s, -, rfl⟩ | ⟨-, rfl⟩⟩ := halted_eq_ok h
  · exact outcome_of_unmarked hr he ho
  · exact outcome_of_unmarked hr he ho

/-- A final record reports the end that a run has come to without it: what the outermost call gave back, in
hexadecimal digits, or, if that call ended on an error among the records, whatever there is to say. -/
inductive Reports (rs : List Record) (t : Trace) (fields : Fields) : Prop where
  | returned {hex : Text} (ho : t.outcome = .return) (houtput : fields.value? "output" = some (.text hex))
    (hhex : Hex.decode hex = .ok t.data) (herror : fields.value? "error" = none)
  | reverted {hex : Text} (ho : t.outcome = .revert) (houtput : fields.value? "output" = some (.text hex))
    (hhex : Hex.decode hex = .ok t.data)
    (herror : fields.value? "error" = some (.text Outcome.revertText))
  | halted (h : HaltsLast rs) (houtput : fields.has "output" = true)

def report (t : Trace) : Fields :=
  ("output", .text (Hex.encode t.data)) ::
    if t.outcome = .revert then [("error", .text Outcome.revertText)] else []

theorem octets_output {fields : Fields} {hex : Text} {bs : Octets}
    (h : fields.value? "output" = some (.text hex)) (hhex : Hex.decode hex = .ok bs) :
    Hex.octets ((Record.finalOf fields).output.getD (.text "0x")) = .ok bs := by
  simp only [Record.finalOf, Record.given?, h, Option.bind_some, Json.given?, Json.isGiven]
  cases hex with
  | nil => exact hhex
  | cons c cs => exact hhex

theorem Reports.ending_eq {rs : List Record} {t : Trace} {fields : Fields} (h : Reports rs t fields)
    (hrs : ¬ HaltsLast rs) :
    (Record.finalOf fields).ending = .ok (t.outcome, t.data) := by
  cases h with
  | returned ho houtput hhex herror =>
    have hnone : (Record.finalOf fields).error = none := by simp [Record.finalOf, Record.given?, herror]
    rw [Summary.ending, octets_output houtput hhex, ok_bind, hnone, ho]
    rfl
  | reverted ho houtput hhex herror =>
    have hsome : (Record.finalOf fields).error = some (.text Outcome.revertText) := by
      show (fields.value? "error").bind Json.given? = _
      rw [herror]
      rfl
    rw [Summary.ending, octets_output houtput hhex, ok_bind, hsome, ho]
    rfl
  | halted h => exact absurd h hrs

section
variable [Limits] {keep : Keep} {depth : Nat} {last : Option StepRecord} {rs left : List Record}
  {t : Trace} {s : Summary}

theorem hasData_of_closing {o : Outcome} {bs : Octets} (h : closing last = .ok (o, bs)) :
    o.hasData = true := by
  cases last with
  | none => cases h
  | some r =>
    rcases StepRecord.ending_cases [] r with ⟨-, -, hending, -⟩ | ⟨o', ho', hending, -⟩ | ⟨-, hending, -⟩
    · cases hending.symm.trans h
      rfl
    · obtain ⟨bs', -, he⟩ := map_eq_ok.1 (hending.symm.trans h)
      cases he
      rcases ho' with ⟨-, rfl⟩ | ⟨-, rfl⟩ <;> rfl
    · cases hending.symm.trans h

/-- The steps that a call takes in lie no less deep than the call. -/
theorem Reads.depth_le (h : Reads keep depth last rs t left) :
    ∃ taken, rs = taken ++ left ∧ ∀ r, .step r ∈ taken → depth ≤ r.depth := by
  induction h with
  | closing hs he => exact ⟨[], rfl, by simp⟩
  | @summary depth last s left o bs hd he => exact ⟨[.summary s], rfl, by simp⟩
  | @call depth last r rs inner left₁ rest left hd hroom hinner hrest ihInner ihRest =>
    obtain ⟨taken, hrs, htaken⟩ := ihInner
    obtain ⟨taken', rfl, htaken'⟩ := ihRest
    refine ⟨taken ++ taken', by rw [hrs, List.append_assoc], fun r hr => ?_⟩
    exact (List.mem_append.1 hr).elim (fun h => Nat.le_of_succ_le (htaken r h)) (htaken' r)
  | @error depth last r left e t hd he ht =>
    obtain ⟨tail, htail, hleft⟩ := exists_tail depth left
    refine ⟨.step r :: tail, congrArg _ hleft, fun r' hr' => ?_⟩
    rcases List.mem_cons.1 hr' with hr' | hr'
    · cases hr'
      exact Nat.le_of_eq hd.symm
    · cases htail <;> simp at hr'
  | @step depth last r rs s rest left hd he hs hrest ih =>
    obtain ⟨taken, rfl, htaken⟩ := ih
    refine ⟨.step r :: taken, rfl, fun r' hr' => ?_⟩
    rcases List.mem_cons.1 hr' with hr' | hr'
    · cases hr'
      exact Nat.le_of_eq hd.symm
    · exact htaken r' hr'

/-- A call within another one leaves what stands behind its records, if that ends the call where nothing
else does. -/
theorem Reads.append_of_stops {more : List Record} (h : Reads keep depth last rs t left) (hdeep : 1 < depth)
    (hmore : Stops depth more) : Reads keep depth last (rs ++ more) t (left ++ more) := by
  induction h with
  | closing hs he =>
    cases hs with
    | nil => exact .closing hmore he
    | summary hd => exact .closing (.summary hd) he
    | above hd => exact .closing (.above hd) he
  | summary hd he => exact absurd hdeep (Nat.not_lt.2 hd)
  | call hd hroom hinner hrest ihInner ihRest =>
    exact .call hd hroom (ihInner (Nat.lt_succ_of_lt hdeep) hmore.deeper) (ihRest hdeep hmore)
  | @error depth last r left e t hd he ht =>
    have herror : Reads keep depth last (.step r :: (left ++ more)) t (skipSummary depth (left ++ more)) :=
      .error hd he ht
    rwa [skipSummary_of_lt hdeep] at herror ⊢
  | step hd he hs hrest ih => exact .step hd he hs (ih hdeep hmore)

/-- The outermost call goes on to a final record behind its records. The record has to tell of the same end,
unless an error has ended the call before. -/
theorem Reads.append_summary (h : Reads keep depth last rs t left) (hd : depth = 1) (hleft : left = [])
    (hrs : ∀ s, .summary s ∉ rs)
    (hs : s.ending = .ok (t.outcome, t.data) ∨ t.outcome.hasData = false) :
    Reads keep depth last (rs ++ [.summary s]) t [] := by
  induction h with
  | closing hstops he =>
    subst hleft
    have hending := hs.resolve_right (by simp [Trace.outcome, hasData_of_closing he])
    exact .summary (Nat.le_of_eq hd) hending
  | summary => exact absurd List.mem_cons_self (hrs _)
  | @call depth last r rs inner left₁ rest left hdeep hroom hinner hrest ihInner ihRest =>
    -- The calls within the outermost one end before the final record as they end behind all records.
    have hstops : Stops (depth + 1) [.summary s] := .summary (by omega)
    have hinner' := hinner.append_of_stops (by omega) hstops
    have hleft₁ : ∀ s, .summary s ∉ left₁ := fun s h => hrs s (hinner.suffix.subset h)
    exact .call hdeep hroom hinner' (ihRest hd hleft hleft₁ hs)
  | @error depth last r left e t hdepth he ht =>
    have hnone : left = [] := by
      rwa [skipSummary_of_unsummed fun s h => hrs s (List.mem_cons_of_mem _ h)] at hleft
    subst hnone
    have herror : Reads keep depth last [.step r, .summary s] t (skipSummary depth [.summary s]) :=
      .error hdepth he ht
    rwa [skipSummary, if_pos hd] at herror
  | step hdepth he hstep hrest ih =>
    exact .step hdepth he hstep (ih hd hleft (fun s h => hrs s (List.mem_cons_of_mem _ h)) hs)

/-- Without a final record the run ends on an error just if the outermost call gives nothing back. -/
theorem Reads.haltsLast_iff (h : Reads keep depth last rs t left) (hd : depth = 1) (hleft : left = [])
    (hrs : ∀ s, .summary s ∉ rs) (hmarks : ∀ r, .step r ∈ rs → r.isMarker = false) :
    HaltsLast rs ↔ t.outcome.hasData = false := by
  induction h with
  | closing hstops he =>
    subst hleft
    exact iff_of_false (by simp [HaltsLast]) (by simp [Trace.outcome, hasData_of_closing he])
  | summary => exact absurd List.mem_cons_self (hrs _)
  | @call depth last r rs inner left₁ rest left hdeep hroom hinner hrest ihInner ihRest =>
    obtain ⟨taken, htaken, hle⟩ := hinner.depth_le
    have hsub := hinner.suffix.subset
    -- All records of the inner call lie deeper, so none of them ends the outermost one.
    rw [htaken, haltsLast_append_iff fun r hr h => by have := hle r hr; omega]
    exact ihRest hd hleft (fun s h => hrs s (hsub h)) fun r h => hmarks r (hsub h)
  | @error depth last r left e t hdepth he ht =>
    have hnone : left = [] := by
      rwa [skipSummary_of_unsummed fun s h => hrs s (List.mem_cons_of_mem _ h)] at hleft
    subst hnone
    refine iff_of_true (haltsLast_singleton (hdepth.trans hd) (by simp [he])) ?_
    exact hasData_of_halted (hmarks r List.mem_cons_self) he ht
  | @step depth last r rs s rest left hdepth he hstep hrest ih =>
    rw [← List.singleton_append, haltsLast_append_iff (by simp [he])]
    exact ih hd hleft (fun s h => hrs s (List.mem_cons_of_mem _ h)) fun r h =>
      hmarks r (List.mem_cons_of_mem _ h)

theorem Reads.reports_report (h : Reads keep 1 none rs t []) (hrs : ∀ s, .summary s ∉ rs)
    (hmarks : ∀ r, .step r ∈ rs → r.isMarker = false) : Reports rs t (report t) := by
  by_cases hdata : t.outcome.hasData = true
  · rcases Outcome.hasData_eq_true.1 hdata with ho | ho
    · exact .returned ho (by simp [report]) (Hex.decode_encode _) (by simp [report, ho])
    · exact .reverted ho (by simp [report]) (Hex.decode_encode _) (by simp [report, ho])
  · refine .halted ((h.haltsLast_iff rfl rfl hrs hmarks).2 (Bool.eq_false_iff.2 hdata)) ?_
    simp [report, Fields.has]

/-- A run that can be told without a final record comes to the same trace with one that reports its end, and
there is such a record for it. -/
theorem ofLines_append_report {lines : List Line} (hrs : Record.ofLines lines = .ok rs)
    (hsum : ∀ s, .summary s ∉ rs) (h : ofLines keep lines = .ok t) :
    Reports (rs.filter (!·.isMarker)) t (report t) ∧
      ∀ line fields, line.read? (lines.length + 1) = .ok (some (.object fields)) →
        fields.has "pc" = false → Reports (rs.filter (!·.isMarker)) t fields →
          ofLines keep (lines ++ [line]) = .ok t := by
  obtain ⟨rs', hrs', hread⟩ := ofLines_eq_ok.1 h
  obtain rfl := Except.ok.inj (hrs.symm.trans hrs')
  have hfilter : ∀ s, .summary s ∉ rs.filter (!·.isMarker) := fun s hs => hsum s (List.mem_filter.1 hs).1
  have hmarks : ∀ r, .step r ∈ rs.filter (!·.isMarker) → r.isMarker = false := fun r hr => by
    simpa [Record.isMarker] using (List.mem_filter.1 hr).2
  refine ⟨hread.reports_report hfilter hmarks, fun line fields hline hpc hreports => ?_⟩
  -- What tells an output and no instruction is read as a summary.
  have houtput : fields.has "output" = true := by
    cases hreports with
    | returned ho houtput => simp [Fields.has, houtput]
    | reverted ho houtput => simp [Fields.has, houtput]
    | halted hlast houtput => exact houtput
  have hlines : Record.ofLines (lines ++ [line]) = .ok (rs ++ [.summary (Record.finalOf fields)]) := by
    rw [Record.ofLines, Record.ofLinesFrom_append, show Record.ofLinesFrom 1 lines = .ok rs from hrs, ok_bind,
      Nat.add_comm, Record.ofLinesFrom, Record.ofLine?_final hline hpc houtput]
    rfl
  refine ofLines_eq_ok.2 ⟨_, hlines, ?_⟩
  rw [List.filter_append]
  refine hread.append_summary rfl rfl hfilter ?_
  by_cases hlast : HaltsLast (rs.filter (!·.isMarker))
  · exact .inr ((hread.haltsLast_iff rfl rfl hfilter hmarks).1 hlast)
  · exact .inl (hreports.ending_eq hlast)

end

/-- The log of code that reverts with two octets. The records of a call behind it are open when the log
ends. -/
def openCall : List Line := [
  .value (.object [("pc", .int 5), ("op", .int 0xFD), ("depth", .int 1), ("gas", .int 9),
    ("stack", .list [.int 2, .text "0x"]), ("memory", .text "0xdead")]),
  .value (.object [("pc", .int 0), ("op", .int 0), ("depth", .int 2), ("gas", .int 8)])]

def openCallTrace : Trace :=
  .step ⟨5, 0xFD, 1, 9, 2, [2, 0], [0xDE, 0xAD], .empty⟩ <|
    .call (.step ⟨0, 0, 2, 8, 0, [], [], .empty⟩ (.ended .return [])) (.ended .revert [0xDE, 0xAD])

theorem ofLines_openCall : @ofLines .unbounded defaultKeep openCall = .ok openCallTrace := by
  let _ : Limits := .unbounded
  exact ofLines_eq_ok.2 ⟨_, rfl, .step rfl rfl rfl <|
    .call (by decide) rfl (.step rfl rfl rfl <| .closing .nil rfl) <| .closing .nil rfl⟩

def openCallReport : Line :=
  .text "\x7b\"output\":\"dead\",\"error\":\"execution reverted\"\x7d"

def openCallFields : Fields := [("output", .text "dead"), ("error", .text Outcome.revertText)]

theorem openCall_append_report :
    (∃ rs, Record.ofLines openCall = .ok rs ∧ (∀ s, .summary s ∉ rs) ∧
      Reports (rs.filter (!·.isMarker)) openCallTrace openCallFields) ∧
    @ofLines .unbounded defaultKeep openCall = .ok openCallTrace ∧
    @ofLines .unbounded defaultKeep (openCall ++ [openCallReport]) = .ok openCallTrace :=
  ⟨⟨_, rfl, by simp, .reverted rfl rfl rfl rfl⟩, ofLines_openCall,
    (@ofLines_append_report .unbounded _ _ _ _ rfl (by simp) ofLines_openCall).2 openCallReport openCallFields
      rfl rfl (.reverted rfl rfl rfl rfl)⟩

end Reconstruction

end CallTrace
