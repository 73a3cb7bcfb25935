import CallTrace.Proofs.Json.Blank
import CallTrace.Proofs.Reconstruction.Ending
import CallTrace.Proofs.Record.Reader

namespace CallTrace
open Attempt

namespace Fault

/-- The fault without the number of the line that it was found on. -/
def unnumbered : Fault → Fault
  | .lineNotJson _ => .lineNotJson 0
  | .lineNotObject _ value => .lineNotObject 0 value
  | .lineNotRecord _ record => .lineNotRecord 0 record
  | .stepWithout _ field record => .stepWithout 0 field record
  | .stepBadField _ field value => .stepBadField 0 field value
  | .stepBadDepth _ depth => .stepBadDepth 0 depth
  | .stepBadStack _ record => .stepBadStack 0 record
  | f => f

@[simp] theorem family?_unnumbered (f : Fault) : f.unnumbered.family? = f.family? := by
  cases f <;> rfl

end Fault

namespace Line

def IsBlank : Line → Prop
  | .text s => Text.allBlank s = true
  | .octets bs => bs.all Text.isBlankOctet = true
  | .value _ => False

inductive Holds : Line → Fields → Prop where
  | text {s : Text} {fields : Fields} (h : Json.read s = .ok (.object fields)) : Holds (.text s) fields
  | octets {bs : Octets} {fields : Fields} (h : Json.readOctets bs = .ok (.object fields)) :
    Holds (.octets bs) fields
  | value (fields : Fields) : Holds (.value (.object fields)) fields

/-- A step record whose error is the text of the markers, whatever else it tells. -/
def IsMarker (line : Line) : Prop :=
  ∃ fields r, line.Holds fields ∧ StepRecord.ReadFrom fields r ∧
    fields.value? "error" = some (.text "execution reverted")

variable {line : Line} {fields : Fields}

theorem read?_of_isBlank (h : line.IsBlank) (n : Nat) : line.read? n = .ok none := by
  cases line with
  | text s => exact if_pos h
  | octets bs => exact if_pos h
  | value j => exact h.elim

theorem read?_of_holds (h : line.Holds fields) (n : Nat) : line.read? n = .ok (some (.object fields)) := by
  cases h with
  | text h =>
    refine (if_neg fun hblank => ?_).trans (congrArg (decoded n) h)
    obtain ⟨f, hf⟩ := Json.read_of_allBlank hblank
    cases hf.symm.trans h
  | octets h =>
    refine (if_neg fun hblank => ?_).trans (congrArg (decoded n) h)
    obtain ⟨f, hf⟩ := Json.readOctets_of_blank hblank
    cases hf.symm.trans h
  | value => rfl

theorem read?_unnumbered (n : Nat) (line : Line) : (line.read? n).mapError Fault.unnumbered = line.read? 0 := by
  have hdecoded : ∀ r, (decoded n r).mapError Fault.unnumbered = decoded 0 r := by
    rintro (f | j)
    · cases f <;> rfl
    · rfl
  cases line with
  | text s =>
    show Except.mapError _ (if Text.allBlank s then .ok none else decoded n (Json.read s)) = _
    rw [apply_ite (Except.mapError Fault.unnumbered), hdecoded]
    rfl
  | octets bs =>
    show Except.mapError _ (if bs.all Text.isBlankOctet then .ok none else decoded n (Json.readOctets bs)) = _
    rw [apply_ite (Except.mapError Fault.unnumbered), hdecoded]
    rfl
  | value j => cases j <;> rfl

end Line

namespace Record

theorem intField_unnumbered (n : Nat) (fields : Fields) (key : Text) :
    (intField n fields key).mapError Fault.unnumbered = intField 0 fields key := by
  unfold intField
  cases fields.value? key with
  | none => rfl
  | some j => cases j <;> rfl

theorem gasField_unnumbered (n : Nat) (fields : Fields) :
    (gasField n fields).mapError Fault.unnumbered = gasField 0 fields := by
  unfold gasField
  cases fields.value? "gas" with
  | none => rfl
  | some j => cases j <;> rfl

theorem stackField_unnumbered (n : Nat) (fields : Fields) :
    (stackField n fields).mapError Fault.unnumbered = stackField 0 fields := by
  unfold stackField
  cases (fields.value? "stack").bind Json.given? with
  | none => rfl
  | some j => cases j <;> rfl

theorem stepOf_unnumbered (n : Nat) (fields : Fields) :
    (stepOf n fields).mapError Fault.unnumbered = stepOf 0 fields := by
  unfold stepOf
  rw [mapError_bind, intField_unnumbered]
  refine bind_congr fun pc => ?_
  rw [mapError_bind, intField_unnumbered]
  refine bind_congr fun op => ?_
  rw [mapError_bind, intField_unnumbered]
  refine bind_congr fun depth => ?_
  rw [mapError_bind, gasField_unnumbered]
  refine bind_congr fun gas => ?_
  by_cases hdepth : depth < 1
  · rw [if_pos hdepth, if_pos hdepth]
    rfl
  · rw [if_neg hdepth, if_neg hdepth, mapError_bind, stackField_unnumbered]
    rfl

theorem ofJson_unnumbered (n : Nat) (j : Json) : (ofJson n j).mapError Fault.unnumbered = ofJson 0 j := by
  cases j with
  | object fields =>
    rw [ofJson, ofJson]
    by_cases hpc : Fields.has fields "pc" = true
    · rw [if_pos hpc, if_pos hpc, fmap_eq, mapError_map, stepOf_unnumbered, fmap_eq]
    · rw [if_neg hpc, if_neg hpc]
      split <;> rfl
  | _ => rfl

theorem ofLine?_unnumbered (n : Nat) (line : Line) :
    (ofLine? n line).mapError Fault.unnumbered = ofLine? 0 line := by
  unfold ofLine?
  rw [mapError_bind, Line.read?_unnumbered]
  refine bind_congr fun j? => ?_
  cases j? with
  | none => rfl
  | some j =>
    rw [mapError_bind, ofJson_unnumbered]
    rfl

def unmarkedFrom (n : Nat) (lines : List Line) : Except Fault (List Record) :=
  ((ofLinesFrom n lines).map (·.filter (!·.isMarker))).mapError Fault.unnumbered

theorem unmarkedFrom_cons (n : Nat) (line : Line) (lines : List Line) :
    unmarkedFrom n (line :: lines) = ofLine? 0 line >>= fun r? =>
      (unmarkedFrom (n + 1) lines).map (r?.toList.filter (!·.isMarker) ++ ·) := by
  unfold unmarkedFrom
  rw [ofLinesFrom, ← ofLine?_unnumbered n line]
  cases ofLine? n line with
  | error f => rfl
  | ok r? =>
    cases ofLinesFrom (n + 1) lines with
    | error f => rfl
    | ok rs => exact congrArg Except.ok (List.filter_append ..)

theorem ofLine?_of_isMarker {line : Line} (h : line.IsMarker) (n : Nat) :
    ∃ r, ofLine? n line = .ok (some r) ∧ r.isMarker = true := by
  obtain ⟨fields, r, hline, hread, herror⟩ := h
  have hpc : Fields.has fields "pc" = true := by rw [Fields.has, hread.pc, Option.isSome_some]
  refine ⟨.step r, ?_, ?_⟩
  · rw [ofLine?, Line.read?_of_holds hline, ok_bind]
    simp only [ofJson, if_pos hpc, stepOf_eq_ok.2 hread]
    rfl
  · have he : r.error = some (.text "execution reverted") := by rw [hread.error, given?, herror]; rfl
    rw [isMarker, StepRecord.isMarker, he]
    rfl

end Record

namespace Reconstruction

/-- The second log is the first one with blank lines and markers put in, and with some of its objects decoded. -/
inductive Noisy : List Line → List Line → Prop where
  | nil : Noisy [] []
  | noise {line : Line} {lines noisy : List Line} (h : line.IsBlank ∨ line.IsMarker)
    (hrest : Noisy lines noisy) : Noisy lines (line :: noisy)
  | keep (line : Line) {lines noisy : List Line} (hrest : Noisy lines noisy) :
    Noisy (line :: lines) (line :: noisy)
  | decode {line : Line} {fields : Fields} {lines noisy : List Line} (h : line.Holds fields)
    (hrest : Noisy lines noisy) : Noisy (line :: lines) (.value (.object fields) :: noisy)

theorem Noisy.unmarkedFrom {lines noisy : List Line} (h : Noisy lines noisy) (m n : Nat) :
    Record.unmarkedFrom m noisy = Record.unmarkedFrom n lines := by
  -- The numbers of the lines drift apart with each line that is put in, so they are any two numbers.
  induction h generalizing m n with
  | nil => rfl
  | noise hline _ ih =>
    rw [Record.unmarkedFrom_cons, ih (m + 1) n]
    rcases hline with hblank | hmarker
    · rw [Record.ofLine?, Line.read?_of_isBlank hblank]
      cases Record.unmarkedFrom n _ <;> rfl
    · obtain ⟨r, hr, hmark⟩ := Record.ofLine?_of_isMarker hmarker 0
      rw [hr, ok_bind, Option.toList_some, List.filter_singleton, hmark]
      cases Record.unmarkedFrom n _ <;> rfl
  | keep line _ ih => rw [Record.unmarkedFrom_cons, Record.unmarkedFrom_cons, ih (m + 1) (n + 1)]
  | @decode line fields _ _ hline _ ih =>
    have hvalue : Record.ofLine? 0 (.value (.object fields)) = Record.ofLine? 0 line := by
      rw [Record.ofLine?, Record.ofLine?, Line.read?_of_holds hline, Line.read?_of_holds (.value _)]
    rw [Record.unmarkedFrom_cons, Record.unmarkedFrom_cons, hvalue, ih (m + 1) (n + 1)]

section
variable [Limits] {keep : Keep}

theorem ofRecords_unmarked (rs : List Record) :
    ofRecords keep (rs.filter (!·.isMarker)) = ofRecords keep rs := by
  rw [ofRecords_eq, ofRecords_eq, List.filter_filter]
  simp only [Bool.and_self]

theorem ofLines_unnumbered (lines : List Line) :
    (ofLines keep lines).mapError Fault.unnumbered =
      Record.unmarkedFrom 1 lines >>= fun rs => (ofRecords keep rs).mapError Fault.unnumbered := by
  unfold ofLines Record.ofLines Record.unmarkedFrom
  cases Record.ofLinesFrom 1 lines with
  | error f => rfl
  | ok rs => exact congrArg (Except.mapError Fault.unnumbered) (ofRecords_unmarked rs).symm

/-- Blank lines and markers that are put in anywhere, and objects that come decoded, change nothing about a trace.
A log that fails still fails by the same fault, on another line at most. -/
theorem ofLines_noisy {lines noisy : List Line} (h : Noisy lines noisy) :
    (∀ t, ofLines keep noisy = .ok t ↔ ofLines keep lines = .ok t) ∧
      ∀ f, ofLines keep lines = .error f → ∃ g, ofLines keep noisy = .error g ∧
        g.unnumbered = f.unnumbered ∧ g.family? = f.family? := by
  have heq : (ofLines keep noisy).mapError Fault.unnumbered = (ofLines keep lines).mapError Fault.unnumbered := by
    rw [ofLines_unnumbered, ofLines_unnumbered, h.unmarkedFrom 1 1]
  refine ⟨fun t => ?_, fun f hf => ?_⟩
  · rw [← mapError_eq_ok (u := Fault.unnumbered), heq, mapError_eq_ok]
  · obtain ⟨g, hg, hfault⟩ := mapError_eq_error.1 (heq.trans (congrArg _ hf))
    exact ⟨g, hg, hfault, by rw [← Fault.family?_unnumbered, hfault, Fault.family?_unnumbered]⟩

end

def strayMarker : Line := .value <| .object [
  ("pc", .int 9), ("op", .int 0xFD), ("depth", .int 7), ("gas", .text "0x0"), ("stack", .list [.text "0xzz"]),
  ("memory", .int 3), ("error", .text "execution reverted"), ("output", .null)]

theorem isMarker_strayMarker : strayMarker.IsMarker :=
  ⟨_, _, .value _, (Record.stepOf_eq_ok (n := 0)).1 rfl, rfl⟩

def writtenCall : List Line :=
  .text "\x7b\"pc\": 0, \"op\": 241, \"depth\": 1, \"gas\": 9\x7d\n" :: returningCall.drop 1

def noisyCall : List Line :=
  .text " \t" :: returningCall.take 1 ++ strayMarker :: (returningCall.drop 1).take 1 ++
    [strayMarker, .octets [0x0D, 0x0A]] ++ returningCall.drop 2 ++ [strayMarker]

theorem noisy_writtenCall : Noisy writtenCall noisyCall :=
  .noise (.inl rfl) <| .decode (.text rfl) <| .noise (.inr isMarker_strayMarker) <| .keep _ <|
    .noise (.inr isMarker_strayMarker) <| .noise (.inl rfl) <| .keep _ <| .noise (.inr isMarker_strayMarker) .nil

theorem ofLines_noisy_writtenCall :
    Noisy writtenCall noisyCall ∧ @ofLines .unbounded (.top 2) noisyCall = .ok returningCallTrace := by
  have hdecoded : Noisy writtenCall returningCall := .decode (.text rfl) <| .keep _ <| .keep _ .nil
  have hwritten : @ofLines .unbounded (.top 2) writtenCall = .ok returningCallTrace :=
    ((@ofLines_noisy .unbounded _ _ _ hdecoded).1 _).1 ofLines_returningCall
  exact ⟨noisy_writtenCall, ((@ofLines_noisy .unbounded _ _ _ noisy_writtenCall).1 _).2 hwritten⟩

end Reconstruction

end CallTrace
