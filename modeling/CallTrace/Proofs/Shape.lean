import CallTrace.Proofs.Fault
import CallTrace.Proofs.Json.Fields
import Mathlib.Control.Lawful

namespace CallTrace
open Attempt

namespace Fault

def IsMissingKey (f : Fault) : Prop := ∃ key, f = .missingKey key

/-- A fault that readers look out for: one of the domain, or a key that is missing, of which they make one. -/
def Expected (f : Fault) : Prop := f.isDomain = true ∨ f.IsMissingKey

def Raw (f : Fault) : Prop := f.isDomain = false ∧ f.isFile = false ∧ ¬ f.IsMissingKey

variable {f : Fault}

theorem Expected.not_raw (h : f.Expected) : ¬ f.Raw := by
  rintro ⟨hraw, -, hkey⟩
  rcases h with h | h
  · rw [h] at hraw
    cases hraw
  · exact hkey h

theorem raw_unsuited : unsuited.Raw := ⟨rfl, rfl, nofun⟩

theorem raw_noFields : noFields.Raw := ⟨rfl, rfl, nofun⟩

end Fault

structure Shape (α : Type) where
  /-- The documents that can be read. -/
  Reads : α → Prop
  /-- The documents on which a reader breaks. -/
  Breaks : α → Prop

/-- An attempt to read a document comes out as its shape tells. -/
structure Follows {α β : Type} (p : Shape α) (a : α) (x : Except Fault β) : Prop where
  reads : (∃ b, x = .ok b) ↔ p.Reads a
  breaks : FailsBy Fault.Raw x ↔ p.Breaks a
  fails : ∀ f, x = .error f → f.Raw ∨ f.Expected

namespace Shape

variable {α β : Type}

def anything : Shape α := ⟨fun _ => True, fun _ => False⟩

/-- Two readings of one document, the second after the first. -/
def andThen (p q : Shape α) : Shape α :=
  ⟨fun a => p.Reads a ∧ q.Reads a, fun a => p.Breaks a ∨ p.Reads a ∧ q.Breaks a⟩

def on (part : β → α) (p : Shape α) : Shape β := ⟨fun a => p.Reads (part a), fun a => p.Breaks (part a)⟩

def each (p : Shape α) : Shape (List α) :=
  ⟨fun as => ∀ a ∈ as, p.Reads a,
    fun as => ∃ before a after, as = before ++ a :: after ∧ (∀ c ∈ before, p.Reads c) ∧ p.Breaks a⟩

def required (key : Text) (p : Shape Json) : Shape Fields :=
  ⟨fun fs => ∃ value, fs.value? key = some value ∧ p.Reads value,
    fun fs => ∃ value, fs.value? key = some value ∧ p.Breaks value⟩

def permitted (key : Text) (p : Shape Json) : Shape Fields :=
  ⟨fun fs => ∀ value, fs.value? key = some value → p.Reads value,
    fun fs => ∃ value, fs.value? key = some value ∧ p.Breaks value⟩

def object (p : Shape Fields) : Shape Json :=
  ⟨fun j => ∃ fs, j = .object fs ∧ p.Reads fs,
    fun j => (∀ fs, j ≠ .object fs) ∨ ∃ fs, j = .object fs ∧ p.Breaks fs⟩

def items (p : Shape (List Json)) : Shape Json :=
  ⟨fun j => ∃ js, j.items = .ok js ∧ p.Reads js,
    fun j => (∀ js, j.items ≠ .ok js) ∨ ∃ js, j.items = .ok js ∧ p.Breaks js⟩

def given (p : Shape Json) : Shape Json :=
  ⟨fun j => j.isGiven = true → p.Reads j, fun j => j.isGiven = true ∧ p.Breaks j⟩

end Shape

theorem failsBy_raw_onMissing {α : Type} {wrap : Json → Fault} {x : Except Fault α} (h : FailsBy Fault.Raw x) :
    FailsBy Fault.Raw (Fault.onMissing wrap x) := by
  obtain ⟨f, rfl, hraw⟩ := h
  unfold Fault.onMissing
  split
  · rename_i he
    exact absurd ⟨_, Except.error.inj he⟩ hraw.2.2
  · exact ⟨f, rfl, hraw⟩

namespace Follows
open Shape

variable {α β γ : Type} {p q : Shape α} {a : α} {x : Except Fault β}

theorem of_ok (b : β) (hreads : p.Reads a) (hbreaks : ¬ p.Breaks a) : Follows p a (.ok b : Except Fault β) :=
  ⟨iff_of_true ⟨b, rfl⟩ hreads, iff_of_false (not_failsBy_ok b) hbreaks, nofun⟩

theorem ok (b : β) : Follows anything a (.ok b : Except Fault β) := of_ok b trivial id

theorem of_raw {f : Fault} (hf : f.Raw) (hreads : ¬ p.Reads a) (hbreaks : p.Breaks a) :
    Follows p a (.error f : Except Fault β) :=
  ⟨iff_of_false (fun ⟨_, h⟩ => nomatch h) hreads, iff_of_true (failsBy_error.2 hf) hbreaks,
    fun _ he => .inl (Except.error.inj he ▸ hf)⟩

theorem of_expected {f : Fault} (hf : f.Expected) (hreads : ¬ p.Reads a) (hbreaks : ¬ p.Breaks a) :
    Follows p a (.error f : Except Fault β) :=
  ⟨iff_of_false (fun ⟨_, h⟩ => nomatch h) hreads, iff_of_false (fun h => hf.not_raw (failsBy_error.1 h)) hbreaks,
    fun _ he => .inr (Except.error.inj he ▸ hf)⟩

theorem congr {δ : Type} {r : Shape δ} {d : δ} (h : Follows p a x) (hreads : p.Reads a ↔ r.Reads d)
    (hbreaks : p.Breaks a ↔ r.Breaks d) : Follows r d x := ⟨h.reads.trans hreads, h.breaks.trans hbreaks, h.fails⟩

theorem on {δ : Type} {part : δ → α} {d : δ} (h : Follows p (part d) x) : Follows (p.on part) d x :=
  ⟨h.reads, h.breaks, h.fails⟩

theorem bind {g : β → Except Fault γ} (hx : Follows p a x) (hg : ∀ b, x = .ok b → Follows q a (g b)) :
    Follows (p.andThen q) a (x >>= g) := by
  cases x with
  | error f =>
    have hreads : ¬ p.Reads a := fun h => nomatch (hx.reads.2 h).choose_spec
    have hbreaks : f.Raw ↔ p.Breaks a := failsBy_error.symm.trans hx.breaks
    refine ⟨iff_of_false (fun ⟨_, h⟩ => nomatch h) fun h => hreads h.1, ?_, fun f' hf' => ?_⟩
    · exact failsBy_error.trans (hbreaks.trans ⟨.inl, fun h => h.resolve_right fun h => hreads h.1⟩)
    · exact hx.fails f' (congrArg Except.error (Except.error.inj hf'))
  | ok b =>
    have hreads : p.Reads a := hx.reads.1 ⟨b, rfl⟩
    have hbreaks : ¬ p.Breaks a := fun h => not_failsBy_ok b (hx.breaks.2 h)
    refine ⟨(hg b rfl).reads.trans (and_iff_right hreads).symm, (hg b rfl).breaks.trans ?_, (hg b rfl).fails⟩
    exact ⟨fun h => .inr ⟨hreads, h⟩, fun h => (h.resolve_left hbreaks).2⟩

theorem map (h : Follows p a x) (g : β → γ) : Follows p a (x >>= fun b => .ok (g b)) :=
  (h.bind (q := anything) fun b _ => ok (g b)).congr (and_iff_left trivial)
    ⟨fun h => h.resolve_right And.right, .inl⟩

theorem mapM {g : α → Except Fault β} {as : List α} (h : ∀ a, Follows p a (g a)) :
    Follows p.each as (as.mapM g) := by
  constructor
  · rw [exists_mapM_eq_ok]
    exact forall₂_congr fun a _ => (h a).reads
  · simp only [failsBy_mapM, (h _).reads, (h _).breaks]
    rfl
  · intro f hf
    obtain ⟨_, a, _, -, -, ha⟩ := mapM_eq_error.1 hf
    exact (h a).fails f ha

theorem onMissing {wrap : Json → Fault} (hwrap : ∀ key, (wrap key).isDomain = true) (h : Follows p a x) :
    Follows p a (Fault.onMissing wrap x) := by
  unfold Fault.onMissing
  split
  · rename_i key
    have hreads : ¬ p.Reads a := fun hp => nomatch (h.reads.2 hp).choose_spec
    have hbreaks : ¬ p.Breaks a := fun hp => (failsBy_error.1 (h.breaks.2 hp)).2.2 ⟨key, rfl⟩
    exact of_expected (.inl (hwrap key)) hreads hbreaks
  · exact h

end Follows

section
open Shape

variable {β : Type} {p : Shape Json} {read : Json → Except Fault β} {fs : Fields} {key : Text}

theorem follows_required (h : ∀ j, Follows p j (read j)) :
    Follows (required key p) fs ((Json.object fs).field key >>= read) := by
  cases hvalue : fs.value? key with
  | none =>
    have hfield : (Json.object fs).field key = .error (.missingKey (.text key)) := by
      simp only [Json.field, hvalue]
    rw [hfield]
    refine .of_expected (.inr ⟨_, rfl⟩) ?_ ?_
    · rintro ⟨value, hv, -⟩
      rw [hvalue] at hv
      cases hv
    · rintro ⟨value, hv, -⟩
      rw [hvalue] at hv
      cases hv
  | some value =>
    rw [Json.field_object hvalue, ok_bind]
    exact (h value).congr (by simp [required, hvalue]) (by simp [required, hvalue])

theorem follows_required_of_eq {value : Json} (hvalue : (Json.object fs).field key = .ok value)
    (h : ∀ j, Follows p j (read j)) : Follows (required key p) fs (read value) := by
  have hread : (Json.object fs).field key >>= read = read value := by rw [hvalue, ok_bind]
  rw [← hread]
  exact follows_required h

theorem follows_permitted {default : Json} (h : ∀ j, Follows p j (read j)) (hdefault : ∃ b, read default = .ok b) :
    Follows (permitted key p) fs ((Json.object fs).fieldOr key default >>= read) := by
  rw [Json.fieldOr_object, ok_bind]
  cases hvalue : fs.value? key with
  | none =>
    obtain ⟨b, hb⟩ := hdefault
    rw [Option.getD_none, hb]
    exact .of_ok b (by simp [permitted, hvalue]) (by simp [permitted, hvalue])
  | some value => exact (h value).congr (by simp [permitted, hvalue]) (by simp [permitted, hvalue])

/-- A field that is asked for only if the object mentions it. -/
theorem follows_mentioned {none? : β} (h : ∀ j, Follows p j (read j)) : Follows (permitted key p) fs (do
    if ← (Json.object fs).mentions key then (Json.object fs).field key >>= read else return none?) := by
  rw [Json.mentions_object, ok_bind]
  cases hvalue : fs.value? key with
  | none =>
    exact .of_ok none? (by simp [permitted, hvalue]) (by simp [permitted, hvalue])
  | some value =>
    rw [Option.isSome_some, if_pos rfl, Json.field_object hvalue, ok_bind]
    exact (h value).congr (by simp [permitted, hvalue]) (by simp [permitted, hvalue])

theorem follows_object (read : Json → Except Fault β) {q : Shape Fields} {j : Json}
    (h : ∀ fs, Follows q fs (read (.object fs)))
    (hother : (∀ fs, j ≠ .object fs) → FailsBy Fault.Raw (read j)) : Follows (object q) j (read j) := by
  by_cases hj : ∃ fs, j = .object fs
  · obtain ⟨fs, rfl⟩ := hj
    exact (h fs).congr (by simp [object]) (by simp [object])
  · have hj : ∀ fs, j ≠ .object fs := fun fs he => hj ⟨fs, he⟩
    obtain ⟨f, hf, hraw⟩ := hother hj
    rw [hf]
    exact .of_raw hraw (fun ⟨fs, he, _⟩ => hj fs he) (.inl hj)

theorem field_of_not_object {j : Json} (h : ∀ fs, j ≠ .object fs) (key : Text) : j.field key = .error .unsuited := by
  cases j with
  | object fs => exact absurd rfl (h fs)
  | _ => rfl

theorem fields_of_not_object {j : Json} (h : ∀ fs, j ≠ .object fs) : j.fields = .error .noFields := by
  cases j with
  | object fs => exact absurd rfl (h fs)
  | _ => rfl

/-- A reader that asks for a field first breaks on what is no object. -/
theorem failsBy_raw_field {j : Json} (h : ∀ fs, j ≠ .object fs) (key : Text) (g : Json → Except Fault β) :
    FailsBy Fault.Raw (j.field key >>= g) := by
  rw [field_of_not_object h]
  exact ⟨.unsuited, rfl, Fault.raw_unsuited⟩

theorem follows_fields {q : Shape Fields} {j : Json} {g : Fields → Except Fault β} (h : ∀ fs, Follows q fs (g fs)) :
    Follows (object q) j (j.fields >>= g) := by
  refine follows_object (fun j => j.fields >>= g) h fun hj => ?_
  rw [fields_of_not_object hj]
  exact ⟨.noFields, rfl, Fault.raw_noFields⟩

theorem follows_items {q : Shape (List Json)} {j : Json} {g : List Json → Except Fault β}
    (h : ∀ js, Follows q js (g js)) : Follows (items q) j (j.items >>= g) := by
  cases hj : j.items with
  | ok js => exact (h js).congr (by simp [items, hj]) (by simp [items, hj])
  | error f =>
    have hraw : f.Raw := by
      unfold Json.items at hj
      split at hj <;> cases hj
      exact Fault.raw_unsuited
    exact .of_raw hraw (by simp [items, hj]) (.inl (by simp [hj]))

theorem follows_given (none? : β) (read : Json → Except Fault β) {j : Json} (h : Follows p j (read j)) :
    Follows (given p) j (match j.given? with
      | none => .ok none?
      | some j => read j) := by
  unfold Json.given?
  by_cases hgiven : j.isGiven = true
  · rw [if_pos hgiven]
    exact h.congr (by simp [given, hgiven]) (by simp [given, hgiven])
  · rw [if_neg hgiven]
    exact .of_ok none? (by simp [given, hgiven]) (by simp [given, hgiven])

end

end CallTrace
