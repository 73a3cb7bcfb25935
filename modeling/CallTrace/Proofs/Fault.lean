import CallTrace.Proofs.Attempt
import CallTrace.Fault

namespace CallTrace
open Attempt

variable {α β : Type}

def FailsBy (P : Fault → Prop) (x : Except Fault α) : Prop := ∃ f, x = .error f ∧ P f

section
variable {P : Fault → Prop} {x : Except Fault α}

theorem not_failsBy_ok (a : α) : ¬ FailsBy P (.ok a : Except Fault α) := by
  rintro ⟨f, h, -⟩
  cases h

theorem failsBy_error {f : Fault} : FailsBy P (.error f : Except Fault α) ↔ P f := by
  simp [FailsBy]

theorem failsBy_bind {g : α → Except Fault β} :
    FailsBy P (x >>= g) ↔ FailsBy P x ∨ ∃ a, x = .ok a ∧ FailsBy P (g a) := by
  cases x with
  | error f => simp [failsBy_error]
  | ok a => simp [not_failsBy_ok]

theorem not_failsBy_bind {g : α → Except Fault β} (hx : ¬ FailsBy P x) (hg : ∀ a, ¬ FailsBy P (g a)) :
    ¬ FailsBy P (x >>= g) := by
  rw [failsBy_bind]
  rintro (h | ⟨a, -, h⟩)
  · exact hx h
  · exact hg a h

theorem failsBy_map {g : α → β} : FailsBy P (x.map g) ↔ FailsBy P x := by
  cases x with
  | error f => simp [failsBy_error]
  | ok a => simp [not_failsBy_ok]

theorem failsBy_mapM {g : α → Except Fault β} {as : List α} :
    FailsBy P (as.mapM g) ↔ ∃ before a after, as = before ++ a :: after ∧
      (∀ c ∈ before, ∃ b, g c = .ok b) ∧ FailsBy P (g a) := by
  constructor
  · rintro ⟨f, hf, hP⟩
    obtain ⟨before, a, after, has, hbefore, ha⟩ := mapM_eq_error.1 hf
    exact ⟨before, a, after, has, hbefore, f, ha, hP⟩
  · rintro ⟨before, a, after, has, hbefore, f, ha, hP⟩
    exact ⟨f, mapM_eq_error.2 ⟨before, a, after, has, hbefore, ha⟩, hP⟩

theorem not_failsBy_mapM {g : α → Except Fault β} {as : List α} (h : ∀ a, ¬ FailsBy P (g a)) :
    ¬ FailsBy P (as.mapM g) := by
  rw [failsBy_mapM]
  rintro ⟨_, a, _, -, -, ha⟩
  exact h a ha

end

/-- A fault outside the domain, if it is not for a nesting that is too deep for the machine. -/
def Fault.Stray (f : Fault) : Prop := f.isDomain = false ∧ f ≠ .tooDeep

def Escapes {α : Type} (x : Except Fault α) : Prop := ∃ f, x = .error f ∧ f.Stray

variable {x : Except Fault α}

theorem not_escapes_ok (a : α) : ¬ Escapes (.ok a : Except Fault α) := not_failsBy_ok a

theorem escapes_error {f : Fault} : Escapes (.error f : Except Fault α) ↔ f.Stray := failsBy_error

theorem Fault.Stray.escapes {f : Fault} (h : f.Stray) : Escapes (.error f : Except Fault α) :=
  escapes_error.2 h

theorem not_escapes_of_isDomain {f : Fault} (h : f.isDomain = true) :
    ¬ Escapes (.error f : Except Fault α) := by
  rw [escapes_error]
  intro hs
  rw [hs.1] at h
  cases h

theorem escapes_bind {g : α → Except Fault β} :
    Escapes (x >>= g) ↔ Escapes x ∨ ∃ a, x = .ok a ∧ Escapes (g a) := failsBy_bind

theorem not_escapes_bind {g : α → Except Fault β} (hx : ¬ Escapes x) (hg : ∀ a, ¬ Escapes (g a)) :
    ¬ Escapes (x >>= g) := not_failsBy_bind hx hg

theorem escapes_map {g : α → β} : Escapes (x.map g) ↔ Escapes x := failsBy_map

theorem escapes_mapM {g : α → Except Fault β} {as : List α} :
    Escapes (as.mapM g) ↔ ∃ before a after, as = before ++ a :: after ∧
      (∀ c ∈ before, ∃ b, g c = .ok b) ∧ Escapes (g a) := failsBy_mapM

end CallTrace
