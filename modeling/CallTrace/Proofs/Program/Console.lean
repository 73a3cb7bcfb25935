import CallTrace.Program.Job
import CallTrace.Proofs.Number.Decimal

namespace CallTrace

/-- Whether standard output has an encoding for all of a text. -/
def Charset.Shows (shows : Charset) (s : Text) : Prop := s.all shows = true

instance (shows : Charset) (s : Text) : Decidable (shows.Shows s) := inferInstanceAs (Decidable (_ = true))

namespace Charset

@[simp] theorem shows_nil (shows : Charset) : shows.Shows [] := rfl

@[simp] theorem shows_append {shows : Charset} {s t : Text} : shows.Shows (s ++ t) ↔ shows.Shows s ∧ shows.Shows t := by
  rw [Shows, List.all_append, Bool.and_eq_true]
  rfl

end Charset

namespace Console

variable {α : Type} {c : Console} {s : Text}

theorem tell_of_shows (h : c.shows.Shows s) : c.tell s = (.ok (), { c with stdout := c.stdout ++ s }) := if_pos h

theorem tell_of_not_shows (h : ¬ c.shows.Shows s) : c.tell s = (.error .unencodable, c) := if_neg h

theorem result_tell (c : Console) (s : Text) :
    (c.tell s).1 = if c.shows.Shows s then .ok () else .error .unencodable := by
  by_cases h : c.shows.Shows s
  · rw [tell_of_shows h, if_pos h]
  · rw [tell_of_not_shows h, if_neg h]

/-- Telling changes nothing but what has been told. -/
theorem exists_stdout_tell (c : Console) (s : Text) : ∃ told, (c.tell s).2 = { c with stdout := told } := by
  unfold tell
  split
  · exact ⟨_, rfl⟩
  · exact ⟨c.stdout, rfl⟩

@[simp] theorem files_tell (c : Console) (s : Text) : (c.tell s).2.files = c.files := by
  obtain ⟨told, h⟩ := c.exists_stdout_tell s
  rw [h]

@[simp] theorem shows_tell (c : Console) (s : Text) : (c.tell s).2.shows = c.shows := by
  obtain ⟨told, h⟩ := c.exists_stdout_tell s
  rw [h]

@[simp] theorem files_absorb (c : Console) (r : Run α) : (c.absorb r).files = c.files := rfl

end Console

end CallTrace
