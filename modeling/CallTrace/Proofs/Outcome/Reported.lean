import CallTrace.Proofs.Attempt
import CallTrace.Outcome.Reported

namespace CallTrace.Outcome

theorem ofExecutionError_eq_ok {e : Json} {o : Outcome} :
    ofExecutionError e = .ok o ↔ ∃ s, e = .text s ∧ execution? s = some o := by
  cases e with
  | text s =>
    simp only [ofExecutionError, ofExecutionText, Json.text.injEq, exists_eq_left']
    cases execution? s <;> simp [Option.elim]
  | _ => simp [ofExecutionError]

/-- The words for an outcome stand in a table, or an opening stands there that begins them. -/
theorem execution?_eq_some {s : Text} {o : Outcome} (h : execution? s = some o) :
    (s, o) ∈ executionTexts ∨ o ∈ executionOpenings.map Prod.snd := by
  rw [execution?, Option.orElse_eq_orElse, Option.orElse_eq_or] at h
  rcases Option.or_eq_some_iff.1 h with h | ⟨-, h⟩
  · obtain ⟨before, after, hsplit, -⟩ := List.lookup_eq_some_iff.1 h
    exact .inl (by rw [hsplit]; simp)
  · obtain ⟨⟨opening, o'⟩, hp, hpo⟩ := List.exists_of_findSome?_eq_some h
    obtain ⟨-, ho⟩ := Option.ite_none_right_eq_some.1 hpo
    obtain rfl := Option.some.inj ho
    exact .inr (List.mem_map_of_mem hp)

/-- No error is a return or stands for nothing known. -/
theorem of_ofExecutionError {e : Json} {o : Outcome} (h : ofExecutionError e = .ok o) :
    o ≠ .return ∧ o ≠ .unknown := by
  obtain ⟨s, -, hs⟩ := ofExecutionError_eq_ok.1 h
  rcases execution?_eq_some hs with hm | hm
  · have htexts : ∀ p ∈ executionTexts, p.2 ≠ .return ∧ p.2 ≠ .unknown := by decide
    exact htexts _ hm
  · have hopenings : ∀ o ∈ executionOpenings.map Prod.snd, o ≠ .return ∧ o ≠ .unknown := by decide
    exact hopenings _ hm

theorem eq_revertText {s : Text} (h : execution? s = some .revert) : s = revertText := by
  rcases execution?_eq_some h with hm | hm
  · have htexts : ∀ p ∈ executionTexts, p.2 = .revert → p.1 = revertText := by decide
    exact htexts _ hm rfl
  · exact absurd hm (by decide)

end CallTrace.Outcome
