import CallTrace.Proofs.Attempt
import CallTrace.Proofs.Pool
import CallTrace.Proofs.Table
import CallTrace.Tool.Run

namespace CallTrace.Run
open Attempt

variable {α β : Type u}

theorem result_ofExcept (r : Except Fault α) : (ofExcept r).result = r := rfl

theorem result_tell (e : Log.Entry) : (tell e).result = .ok ⟨⟩ := rfl

/-- An attempt that comes to something comes to what the work came to. -/
theorem eq_result_of_result_attempted {r : Run α} {x : Except Fault α} (h : r.attempted.result = .ok x) :
    x = r.result := by
  unfold attempted at h
  split at h
  · rename_i a ha
    rw [ha]
    exact (Except.ok.inj h).symm
  · rename_i f hf
    rw [hf]
    dsimp only at h
    split at h
    · exact (Except.ok.inj h).symm
    · cases h

/-- Faults that a batch goes on after are values of the attempt. -/
theorem result_attempted {r : Run α} (h : ∀ f, r.result = .error f → f.isInstanceFault = true) :
    r.attempted.result = .ok r.result := by
  unfold attempted
  split
  · rename_i a ha
    rw [ha]
  · rename_i f hf
    rw [hf, h f hf]
    rfl

theorem result_mapM (work : α → Run β) (items : List α) :
    (items.mapM work).result = items.mapM fun a => (work a).result := by
  have hloop : ∀ done, (List.mapM.loop work items done).result =
      List.mapM.loop (fun a => (work a).result) items done := by
    induction items with
    | nil => exact fun done => rfl
    | cons a items ih =>
      intro done
      rw [List.mapM.loop, List.mapM.loop, result_bind]
      congr 1
      funext b
      exact ih (b :: done)
  exact hloop []

def pieces (work : α → Run β) (items : List α) : List (Int × Run β) :=
  items.zipIdx.map fun (a, n) => (Int.ofNat n, work a)

theorem pieces_sorted (work : α → Run β) (items : List α) :
    (pieces work items).Pairwise fun p q => p.1 < q.1 := by
  have hplaces : (items.zipIdx.map Prod.snd).Pairwise (· < ·) := by
    rw [List.zipIdx_map_snd]
    exact List.pairwise_lt_range'
  unfold pieces
  rw [List.pairwise_map] at hplaces ⊢
  exact hplaces.imp fun h => Int.ofNat_lt.2 h

theorem mapM_pieces (work : α → Run β) (items : List α) :
    (pieces work items).mapM (·.2.result) = items.mapM fun a => (work a).result := by
  have hitems : items.zipIdx.map Prod.fst = items := List.zipIdx_map_fst 0 items
  unfold pieces
  conv_rhs => rw [← hitems, List.mapM_map]
  rw [List.mapM_map]
  rfl

/-- Work on items none of which ends in a fault comes to the results in the order of the items, however many
workers there are and whichever of them is done first. -/
theorem result_forEach {workers : Nat} (hw : 0 < workers) (chance : Pool.Chance) {work : α → Run β}
    {items : List α} {result : α → β} (h : ∀ a ∈ items, (work a).result = .ok (result a)) :
    (forEach workers chance work items).result = .ok (items.map result) := by
  have hgoes : ∀ p ∈ pieces work items, p.2.isFaulty = false := by
    intro p hp
    obtain ⟨⟨a, n⟩, ha, rfl⟩ := List.mem_map.1 hp
    show (work a).isFaulty = false
    rw [isFaulty, h a (List.fst_mem_of_mem_zipIdx ha)]
  have hperm : (Pool.order workers chance (·.2.isFaulty) (pieces work items)).Perm (pieces work items) :=
    Pool.order_perm hw chance hgoes
  -- The results are put back in their places, whatever the order in which they came.
  have htable : Table.ofList (Pool.order workers chance (·.2.isFaulty) (pieces work items)) =
      ⟨pieces work items, pieces_sorted work items⟩ := Table.ofList_of_perm hperm
  have hresults : items.mapM (fun a => (work a).result) = .ok (items.map result) :=
    mapM_eq_ok.2 (List.forall₂_map_right_iff.2 (List.forall₂_same.2 h))
  show (Table.ofList (Pool.order workers chance (·.2.isFaulty) (pieces work items))).entries.mapM _ = _
  rw [htable, mapM_pieces, hresults]

/-- Whatever the faults, what shared work comes to are results of the work on its items. -/
theorem exists_of_result_forEach {workers : Nat} {chance : Pool.Chance} {work : α → Run β} {items : List α}
    {bs : List β} {b : β} (h : (forEach workers chance work items).result = .ok bs) (hb : b ∈ bs) :
    ∃ a ∈ items, (work a).result = .ok b := by
  obtain ⟨p, hp, hresult⟩ := exists_of_mem_mapM h hb
  have hdone : p ∈ pieces work items := Pool.mem_of_mem_done (Table.mem_of_mem_ofList hp)
  obtain ⟨⟨a, n⟩, ha, rfl⟩ := List.mem_map.1 hdone
  exact ⟨a, List.fst_mem_of_mem_zipIdx ha, hresult⟩

/-- A fault that ends shared work is one of the work on its items. -/
theorem exists_of_result_forEach_error {workers : Nat} {chance : Pool.Chance} {work : α → Run β} {items : List α}
    {f : Fault} (h : (forEach workers chance work items).result = .error f) :
    ∃ a ∈ items, (work a).result = .error f := by
  obtain ⟨before, p, after, hsplit, -, hresult⟩ := mapM_eq_error.1 h
  have hdone : p ∈ before ++ p :: after := List.mem_append_right before List.mem_cons_self
  rw [← hsplit] at hdone
  have hp : p ∈ pieces work items := Pool.mem_of_mem_done (Table.mem_of_mem_ofList hdone)
  obtain ⟨⟨a, n⟩, ha, rfl⟩ := List.mem_map.1 hp
  exact ⟨a, List.fst_mem_of_mem_zipIdx ha, hresult⟩

/-- Shared work that comes to something comes to what the work on each item comes to, in order. -/
theorem mapM_of_result_forEach {workers : Nat} (hw : 0 < workers) {chance : Pool.Chance} {work : α → Run β}
    {items : List α} {bs : List β} (h : (forEach workers chance work items).result = .ok bs) :
    items.mapM (fun a => (work a).result) = .ok bs := by
  generalize hdone : Pool.order workers chance (·.2.isFaulty) (pieces work items) = done
  change (Table.ofList (Pool.order workers chance (·.2.isFaulty) (pieces work items))).entries.mapM _ = _ at h
  rw [hdone] at h
  have hkeys : (done.map Prod.fst).Nodup := by
    obtain ⟨found, hperm, hsub⟩ : done.Subperm (pieces work items) := hdone ▸ Pool.done_subperm ..
    have hnodup : ((pieces work items).map Prod.fst).Nodup :=
      List.pairwise_map.2 ((pieces_sorted work items).imp Int.ne_of_lt)
    exact (hperm.map Prod.fst).nodup_iff.1 (hnodup.sublist (hsub.map Prod.fst))
  have hgoes : ∀ p ∈ done, p.2.isFaulty = false := by
    intro p hp
    obtain ⟨b, hb⟩ := exists_mapM_eq_ok.1 ⟨bs, h⟩ p ((Table.mem_ofList hkeys p).2 hp)
    rw [isFaulty, hb]
  -- So no fault ended the work early, and all of it was done.
  have hperm : done.Perm (pieces work items) := by
    have hall := Pool.done_eq_goesOn (hdone.symm ▸ hgoes : ∀ p ∈ Pool.order workers chance _ _, _)
    rw [← hdone, Pool.order, hall]
    exact Pool.done_perm hw chance fun _ _ => rfl
  have htable : Table.ofList done = ⟨pieces work items, pieces_sorted work items⟩ := Table.ofList_of_perm hperm
  rw [htable, mapM_pieces] at h
  exact h

/-- Work whose only fault is one and the same ends in it as soon as an item does, whichever worker comes first. -/
theorem result_forEach_eq_error {workers : Nat} (hw : 0 < workers) {chance : Pool.Chance} {work : α → Run β}
    {items : List α} {e : Fault} (hall : ∀ a ∈ items, ∀ f, (work a).result = .error f → f = e)
    (hsome : ∃ a ∈ items, (work a).result = .error e) : (forEach workers chance work items).result = .error e := by
  cases hresult : (forEach workers chance work items).result with
  | error f =>
    obtain ⟨a, ha, hf⟩ := exists_of_result_forEach_error hresult
    rw [hall a ha f hf]
  | ok bs =>
    obtain ⟨a, ha, hf⟩ := hsome
    obtain ⟨b, hb⟩ := exists_mapM_eq_ok.1 ⟨bs, mapM_of_result_forEach hw hresult⟩ a ha
    rw [hf] at hb
    cases hb

end CallTrace.Run
