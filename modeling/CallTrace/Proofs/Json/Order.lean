import CallTrace.Json.Order
import CallTrace.Proofs.Fault
import Mathlib.Data.List.GetD
import Mathlib.Data.List.InsertIdx

namespace CallTrace.Json
open Attempt

def OnlyUnsuited {α : Type} (x : Except Fault α) : Prop := ¬ FailsBy (· ≠ .unsuited) x

section
variable {α β : Type} {x : Except Fault α}

theorem onlyUnsuited_ok (a : α) : OnlyUnsuited (.ok a : Except Fault α) := not_failsBy_ok a

theorem onlyUnsuited_unsuited : OnlyUnsuited (.error .unsuited : Except Fault α) :=
  fun h => failsBy_error.1 h rfl

theorem OnlyUnsuited.bind {g : α → Except Fault β} (hx : OnlyUnsuited x) (hg : ∀ a, OnlyUnsuited (g a)) :
    OnlyUnsuited (x >>= g) := not_failsBy_bind hx hg

theorem OnlyUnsuited.eq_unsuited {f : Fault} (h : OnlyUnsuited x) (hf : x = .error f) : f = .unsuited := by
  by_contra hne
  exact h ⟨f, hf, hne⟩

end

mutual

theorem onlyUnsuited_isBelow (a b : Json) : OnlyUnsuited (isBelow a b) := by
  unfold isBelow
  split
  · exact onlyUnsuited_itemsBelow _ _
  · exact onlyUnsuited_ok _
  · split
    · exact onlyUnsuited_ok _
    · exact onlyUnsuited_unsuited

theorem onlyUnsuited_itemsBelow (xs ys : List Json) : OnlyUnsuited (itemsBelow xs ys) := by
  unfold itemsBelow
  split
  · split
    · exact onlyUnsuited_itemsBelow _ _
    · exact onlyUnsuited_isBelow _ _
  · exact onlyUnsuited_ok _
  · exact onlyUnsuited_ok _

end

theorem onlyUnsuited_takeRun (falls : Bool) (last : Json) (js : List Json) :
    OnlyUnsuited (takeRun falls last js) := by
  induction js generalizing last with
  | nil => exact onlyUnsuited_ok _
  | cons j js ih =>
    refine (onlyUnsuited_isBelow j last).bind fun below => ?_
    split
    · exact (ih j).bind fun _ => onlyUnsuited_ok _
    · exact onlyUnsuited_ok _

theorem onlyUnsuited_placeIn (run : List Json) (j : Json) (times low high : Nat) :
    OnlyUnsuited (placeIn run j times low high) := by
  induction times generalizing low high with
  | zero => exact onlyUnsuited_ok _
  | succ times ih =>
    unfold placeIn
    split
    · refine (onlyUnsuited_isBelow _ _).bind fun below => ?_
      split
      · exact ih _ _
      · exact ih _ _
    · exact onlyUnsuited_ok _

theorem onlyUnsuited_insertAll (js run : List Json) : OnlyUnsuited (js.foldlM insertIn run) := by
  induction js generalizing run with
  | nil => exact onlyUnsuited_ok _
  | cons j js ih =>
    rw [List.foldlM_cons]
    exact ((onlyUnsuited_placeIn _ _ _ _ _).bind fun _ => onlyUnsuited_ok _).bind ih

theorem onlyUnsuited_sorted (js : List Json) : OnlyUnsuited (sorted js) := by
  unfold sorted
  split
  · refine (onlyUnsuited_isBelow _ _).bind fun falls => ?_
    exact (onlyUnsuited_takeRun _ _ _).bind fun _ => onlyUnsuited_insertAll _ _
  · exact onlyUnsuited_ok _

def AreTexts (js : List Json) : Prop := ∀ j ∈ js, ∃ s, j = .text s

theorem exists_isBelow {a b : Json} (ha : ∃ s, a = .text s) (hb : ∃ s, b = .text s) :
    ∃ below, isBelow a b = .ok below := by
  obtain ⟨s, rfl⟩ := ha
  obtain ⟨t, rfl⟩ := hb
  exact ⟨_, by rw [isBelow]⟩

theorem exists_takeRun (falls : Bool) {last : Json} {js : List Json} (hlast : ∃ s, last = .text s)
    (h : AreTexts js) : ∃ run rest, takeRun falls last js = .ok (run, rest) ∧ AreTexts run ∧ AreTexts rest := by
  induction js generalizing last with
  | nil => exact ⟨[], [], rfl, h, h⟩
  | cons j js ih =>
    obtain ⟨hj, hjs⟩ := List.forall_mem_cons.1 h
    obtain ⟨below, hbelow⟩ := exists_isBelow hj hlast
    rw [takeRun, hbelow, ok_bind]
    split
    · obtain ⟨run, rest, hrun, hrun', hrest⟩ := ih hj hjs
      exact ⟨j :: run, rest, by rw [hrun]; rfl, List.forall_mem_cons.2 ⟨hj, hrun'⟩, hrest⟩
    · exact ⟨[], j :: js, rfl, nofun, h⟩

theorem exists_placeIn {run : List Json} {j : Json} (hrun : AreTexts run) (hj : ∃ s, j = .text s)
    (times : Nat) {low high : Nat} (hhigh : high ≤ run.length) :
    ∃ place, placeIn run j times low high = .ok place := by
  induction times generalizing low high with
  | zero => exact ⟨low, rfl⟩
  | succ times ih =>
    unfold placeIn
    split
    · have hmiddle : (low + high) / 2 < run.length := by omega
      have htext : ∃ s, run.getD ((low + high) / 2) .null = .text s := by
        rw [List.getD_eq_getElem run .null hmiddle]
        exact hrun _ (List.getElem_mem hmiddle)
      obtain ⟨below, hbelow⟩ := exists_isBelow hj htext
      dsimp only
      rw [hbelow, ok_bind]
      split
      · exact ih (Nat.le_of_lt hmiddle)
      · exact ih hhigh
    · exact ⟨low, rfl⟩

theorem exists_insertAll {js run : List Json} (h : AreTexts js) (hrun : AreTexts run) :
    ∃ all, js.foldlM insertIn run = .ok all := by
  induction js generalizing run with
  | nil => exact ⟨run, rfl⟩
  | cons j js ih =>
    obtain ⟨hj, hjs⟩ := List.forall_mem_cons.1 h
    obtain ⟨place, hplace⟩ : ∃ place, placeIn run j run.length 0 run.length = .ok place :=
      exists_placeIn hrun hj run.length (Nat.le_refl _)
    rw [List.foldlM_cons, insertIn, hplace, ok_bind, pure_eq, ok_bind]
    refine ih hjs fun a ha => ?_
    rcases List.eq_or_mem_of_mem_insertIdx ha with rfl | ha
    · exact hj
    · exact hrun a ha

theorem exists_sorted {js : List Json} (h : AreTexts js) : ∃ all, sorted js = .ok all := by
  unfold sorted
  split
  · rename_i a b js
    obtain ⟨ha, hb, hjs⟩ : (∃ s, a = .text s) ∧ (∃ s, b = .text s) ∧ AreTexts js := by
      simpa only [AreTexts, List.forall_mem_cons] using h
    obtain ⟨falls, hfalls⟩ := exists_isBelow hb ha
    obtain ⟨run, rest, hrun, hrun', hrest⟩ := exists_takeRun falls hb hjs
    rw [hfalls, ok_bind, hrun, ok_bind]
    have hall : AreTexts (a :: b :: run) := List.forall_mem_cons.2 ⟨ha, List.forall_mem_cons.2 ⟨hb, hrun'⟩⟩
    refine exists_insertAll hrest ?_
    split
    · exact fun j hj => hall j (List.mem_reverse.1 hj)
    · exact hall
  · exact ⟨_, rfl⟩

end CallTrace.Json
