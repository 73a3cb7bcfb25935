import CallTrace.Proofs.Trace.Line
import CallTrace.Proofs.Trace.Steps
import CallTrace.Trace.Outline

namespace CallTrace
open Attempt

theorem Outcome.isPlain_name (o : Outcome) : o.name.IsPlain := by
  cases o <;> decide

namespace Trace

/-- What a line is about: a step or the end of a call, with so many calls around it. -/
inductive Row where
  | step (around : Nat) (s : Step)
  | ended (around : Nat) (o : Outcome) (bs : Octets)

namespace Row

def around : Row → Nat
  | .step around _ | .ended around .. => around

def step? : Row → Option Step
  | .step _ s => some s
  | .ended .. => none

def title : Row → Text
  | .step _ s => s.title
  | .ended _ o _ => o.name

def line (k : Nat) : Row → Except Fault Text
  | .step around s => s.line ↑(k + around)
  | .ended around o bs => endLine ↑(k + around) o bs

/-- The line is the one for the row. It is indented as deep as the row lies, and it tells the items of a stack that are
not shown just if there are any. -/
structure Shows (k : Nat) (row : Row) (t : Text) : Prop where
  text : row.line k = .ok t
  indented : ∃ dots, indent ↑(k + row.around) = .ok dots ∧ dots ++ row.title <+: t
  hidden : ∀ n, Step.TellsHidden n t ↔ ∃ s, row.step? = some s ∧ 0 < s.hidden ∧ n = s.hidden

end Row

def rows (around : Nat) : Trace → List Row
  | .ended o bs => [.ended around o bs]
  | .step s rest => .step around s :: rest.rows around
  | .call inner rest => inner.rows (around + 1) ++ rest.rows around

def Element.rows (around : Nat) : Element → List Row
  | .step s => [.step around s]
  | .call t => t.rows (around + 1)

/-- The end of a call comes right behind the rows of its parts. -/
theorem rows_eq (around : Nat) (t : Trace) :
    t.rows around = t.elements.flatMap (Element.rows around) ++ [.ended around t.outcome t.data] := by
  induction t with
  | ended o bs => rfl
  | step s rest ih =>
    rw [rows, ih]
    rfl
  | call inner rest _ ih =>
    rw [rows, ih, elements, List.flatMap_cons, List.append_assoc]
    rfl

theorem filterMap_step?_rows (around : Nat) (t : Trace) : (t.rows around).filterMap Row.step? = t.allSteps := by
  induction t generalizing around with
  | ended o bs => rfl
  | step s rest ih =>
    rw [rows, List.filterMap_cons, ih]
    rfl
  | call inner rest ihInner ihRest => rw [rows, List.filterMap_append, ihInner, ihRest, allSteps]

/-- The lines of a call within another one are its own lines one level down. -/
theorem linesAt_eq (k around : Nat) (t : Trace) : t.linesAt ↑(k + around) = (t.rows around).mapM (Row.line k) := by
  induction t generalizing around with
  | ended o bs =>
    rw [rows, List.mapM_cons, List.mapM_nil]
    rfl
  | step s rest ih =>
    rw [rows, List.mapM_cons, ← ih]
    rfl
  | call inner rest ihInner ihRest =>
    rw [rows, List.mapM_append, ← ihInner, ← ihRest]
    rfl

theorem endLine_natural (depth : Nat) (o : Outcome) (bs : Octets) : ∃ dots after, indent depth = .ok dots ∧
    (dots ++ o.name ++ after).IsPlain ∧ endLine depth o bs = .ok (dots ++ o.name ++ after) := by
  obtain ⟨dots, hdots, hplain⟩ := exists_indent depth
  refine ⟨dots, _, hdots, ?_, by rw [endLine, hdots]; rfl⟩
  refine Text.isPlain_append.2 ⟨Text.isPlain_append.2 ⟨hplain, o.isPlain_name⟩, ?_⟩
  split
  · decide
  · exact Text.isPlain_append.2 ⟨Text.isPlain_append.2 ⟨by decide, Hex.isPlain_abbreviated _ _⟩, by decide⟩

namespace Row

variable {k : Nat} {row : Row}

theorem exists_line_eq_ok (hrow : ∀ s, row.step? = some s → s.IsNatural) :
    (∃ t, row.line k = .ok t) ↔ ∀ s, row.step? = some s → s.IsSpelled := by
  cases row with
  | step around s =>
    refine (Step.exists_line_eq_ok (hrow s rfl) _).trans ⟨?_, fun h => h s rfl⟩
    rintro h _ ⟨⟩
    exact h
  | ended around o bs =>
    obtain ⟨dots, after, -, -, hline⟩ := endLine_natural (k + around) o bs
    exact iff_of_true ⟨_, hline⟩ nofun

theorem not_failsBy_line (hrow : ∀ s, row.step? = some s → s.IsNatural) :
    ¬ FailsBy (· ≠ .unwritableNumber) (row.line k) := by
  cases row with
  | step around s => exact Step.not_failsBy_line (hrow s rfl) _
  | ended around o bs =>
    obtain ⟨dots, after, -, -, hline⟩ := endLine_natural (k + around) o bs
    rw [line, hline]
    exact not_failsBy_ok _

theorem shows_of_line {t : Text} (hrow : ∀ s, row.step? = some s → s.IsNatural) (ht : row.line k = .ok t) :
    row.Shows k t ∧ .char '\n' ∉ t := by
  cases row with
  | step around s =>
    obtain ⟨dots, before, after, hdots, hbefore, hafter, hspace, rfl⟩ := Step.line_eq_ok (hrow s rfl) ht
    refine ⟨⟨ht, ⟨dots, hdots, ?_⟩, fun n => ?_⟩, ?_⟩
    · simp only [List.append_assoc]
      exact ⟨_, List.append_assoc ..⟩
    · rw [Step.tellsHidden_iff hbefore hafter hspace]
      simp [step?]
    · exact List.not_mem_append (List.not_mem_append (List.not_mem_append hbefore.lineEnd_not_mem (by decide))
        (Step.isPlain_hiddenText _).lineEnd_not_mem) hafter.lineEnd_not_mem
  | ended around o bs =>
    obtain ⟨dots, after, hdots, hplain, hline⟩ := endLine_natural (k + around) o bs
    obtain rfl := Except.ok.inj (hline.symm.trans ht)
    refine ⟨⟨ht, ⟨dots, hdots, List.prefix_append _ _⟩, fun n => ?_⟩, hplain.lineEnd_not_mem⟩
    refine iff_of_false (fun h => ?_) (by simp [step?])
    exact hplain.bracket_not_mem (h.subset List.mem_cons_self)

end Row

/-- With so many calls around it, the text of a trace tells all that happened, line by line. -/
def Outlines [Limits] (k : Nat) (t : Trace) : Prop :=
  ∃ text, t.render k = .ok text ∧ List.Forall₂ (Row.Shows k) (t.rows 0) (text.split (.char '\n'))

section
variable {t : Trace} {k : Nat}

theorem forall_step_rows {p : Step → Prop} (around : Nat) :
    (∀ row ∈ t.rows around, ∀ s, row.step? = some s → p s) ↔ ∀ s ∈ t.allSteps, p s := by
  rw [← filterMap_step?_rows around t]
  simp only [List.mem_filterMap]
  constructor
  · rintro h s ⟨row, hrow, hs⟩
    exact h row hrow s hs
  · exact fun h row hrow s hs => h s ⟨row, hrow, hs⟩

theorem rows_ne_nil (around : Nat) (t : Trace) : t.rows around ≠ [] := by
  rw [rows_eq]
  simp

theorem exists_linesAt_eq_ok (h : ∀ s ∈ t.allSteps, s.IsNatural) :
    (∃ ls, t.linesAt k = .ok ls) ↔ ∀ s ∈ t.allSteps, s.IsSpelled := by
  have hrows := (forall_step_rows 0).2 h
  rw [← Nat.add_zero k, linesAt_eq, exists_mapM_eq_ok, ← forall_step_rows 0]
  exact forall₂_congr fun row hrow => Row.exists_line_eq_ok (hrows row hrow)

theorem linesAt_eq_error {f : Fault} (h : ∀ s ∈ t.allSteps, s.IsNatural) (hf : t.linesAt k = .error f) :
    f = .unwritableNumber := by
  rw [← Nat.add_zero k, linesAt_eq] at hf
  obtain ⟨before, row, after, hsplit, -, hrow⟩ := mapM_eq_error.1 hf
  have hmem : row ∈ t.rows 0 := hsplit ▸ List.mem_append_right before List.mem_cons_self
  by_contra hne
  exact Row.not_failsBy_line ((forall_step_rows 0).2 h row hmem) ⟨f, hrow, hne⟩

/-- No part of a line has a line end in it, so the text falls apart into the lines that it was made of. -/
theorem shows_split_of_linesAt {ls : List Text} (h : ∀ s ∈ t.allSteps, s.IsNatural) (hls : t.linesAt k = .ok ls) :
    List.Forall₂ (Row.Shows k) (t.rows 0) ((Text.join "\n" ls).split (.char '\n')) := by
  rw [← Nat.add_zero k, linesAt_eq] at hls
  have hlines := mapM_eq_ok.1 hls
  have hnatural := (forall_step_rows 0).2 h
  have hne : ls ≠ [] := by
    rintro rfl
    exact rows_ne_nil 0 t (List.forall₂_nil_right_iff.1 hlines)
  have hlineEnd : ∀ l ∈ ls, .char '\n' ∉ l := by
    intro l hl
    obtain ⟨row, hrow, hline⟩ := exists_of_mem_mapM hls hl
    exact (Row.shows_of_line (hnatural row hrow) hline).2
  have hsplit : (Text.join "\n" ls).split (.char '\n') = ls := List.splitOn_intercalate _ hlineEnd hne
  rw [hsplit]
  refine List.forall₂_iff_get.2 ⟨hlines.length_eq, fun i hi hi' => ?_⟩
  exact (Row.shows_of_line (hnatural _ (List.get_mem _ _)) (hlines.get hi hi')).1

section
variable [Limits]

theorem render_eq_map (hroom : Limits.admitsDepth outlineFrames t.nesting = true) :
    t.render k = (t.linesAt k).map (Text.join "\n") := by
  rw [render, lines, if_pos hroom]
  rfl

theorem outlines_iff (h : ∀ s ∈ t.allSteps, s.IsNatural)
    (hroom : Limits.admitsDepth outlineFrames t.nesting = true) : t.Outlines k ↔ ∀ s ∈ t.allSteps, s.IsSpelled := by
  rw [← exists_linesAt_eq_ok h (k := k)]
  constructor
  · rintro ⟨text, htext, -⟩
    obtain ⟨ls, hls, -⟩ := map_eq_ok.1 (render_eq_map hroom ▸ htext)
    exact ⟨ls, hls⟩
  · rintro ⟨ls, hls⟩
    exact ⟨_, by rw [render_eq_map hroom, hls, map_ok], shows_split_of_linesAt h hls⟩

theorem render_of_not_isSpelled (h : ∀ s ∈ t.allSteps, s.IsNatural)
    (hroom : Limits.admitsDepth outlineFrames t.nesting = true) (hspelled : ¬ ∀ s ∈ t.allSteps, s.IsSpelled) :
    t.render k = .error .unwritableNumber := by
  cases hls : t.linesAt k with
  | ok ls => exact absurd ((exists_linesAt_eq_ok h).1 ⟨ls, hls⟩) hspelled
  | error f => rw [render_eq_map hroom, hls, map_error, linesAt_eq_error h hls]

/-- The text of a trace tells all that happened, unless calls lie within one another too deep for the machine or a
number has too many digits to be written in decimal. -/
theorem render_outlines (h : ∀ s ∈ t.allSteps, s.IsNatural) :
    (Limits.admitsDepth outlineFrames t.nesting = false → t.render k = .error .tooDeep) ∧
      (Limits.admitsDepth outlineFrames t.nesting = true → (t.Outlines k ↔ ∀ s ∈ t.allSteps, s.IsSpelled) ∧
        (¬ (∀ s ∈ t.allSteps, s.IsSpelled) → t.render k = .error .unwritableNumber)) := by
  refine ⟨fun hdeep => ?_, fun hroom => ⟨outlines_iff h hroom, render_of_not_isSpelled h hroom⟩⟩
  rw [render, lines, hdeep]
  rfl

end

end

def branchingCalls : Trace :=
  .step ⟨0, 0xF1, 1, 0x10, 7, [0, 0x100], [1, 2], .ofList [(3, -4)]⟩ <|
    .call (.call (.ended .invalidOpcode []) <| .step ⟨4, 0x1FF, 2, 5, 0, [], [], .empty⟩ <| .ended .revert [0xAB]) <|
      .ended .return []

theorem render_outlines_branchingCalls :
    (∀ s ∈ branchingCalls.allSteps, s.IsNatural) ∧ @Outlines .unbounded 9 branchingCalls ∧
      @render .unbounded 9 branchingCalls = .ok (Text.join "\n" [
        ". . . . . . . . . 0:CALL, gas=0x10, stack=[ (5 items) ... 0x00, 0x0100], memory=0x0102, storage=\x7b3: -4\x7d",
        ". . . . . . . . . . (0x0b) INVALID_OPCODE",
        ". . . . . . . . . . (0x0a) 4:UNKNOWN_0x1ff, gas=0x05, stack=[]",
        ". . . . . . . . . . (0x0a) REVERT(0xab)",
        ". . . . . . . . . RETURN"]) := by
  have hnatural : ∀ s ∈ branchingCalls.allSteps, s.IsNatural := by decide
  have hspelled : ∀ s ∈ branchingCalls.allSteps, s.IsSpelled := by decide +kernel
  exact ⟨hnatural, ((@render_outlines branchingCalls 9 .unbounded hnatural).2 rfl).1.2 hspelled,
    eq_ok_of_toOption (by decide +kernel)⟩

def greatSlot : Trace :=
  .step ⟨0, 0x55, 1, 1, 0, [], [], .ofList [(1, Nat.pow 16 3572)]⟩ <| .ended .return []

theorem not_outlines_greatSlot : (∀ s ∈ greatSlot.allSteps, s.IsNatural) ∧
    @render .unbounded 0 greatSlot = .error .unwritableNumber ∧ ¬ @Outlines .unbounded 0 greatSlot := by
  have hnatural : ∀ s ∈ greatSlot.allSteps, s.IsNatural := by decide +kernel
  have hspelled : ¬ ∀ s ∈ greatSlot.allSteps, s.IsSpelled := by decide +kernel
  exact ⟨hnatural, @render_of_not_isSpelled _ 0 .unbounded hnatural rfl hspelled,
    fun h => hspelled ((@outlines_iff _ 0 .unbounded hnatural rfl).1 h)⟩

end Trace

end CallTrace
