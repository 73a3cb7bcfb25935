import CallTrace.Proofs.Json.Proper

namespace CallTrace.Json
open Attempt

/-- What holds of every value that is read, because it holds of one as soon as it holds of the values in it. -/
structure KeptByReading (P : Json → Prop) : Prop where
  text : ∀ s, P (.text s)
  named : ∀ e ∈ names, P e.2
  number : ∀ t j, number t = .ok j → P j
  list : ∀ items, (∀ j ∈ items, P j) → P (.list items)
  object : ∀ pairs, (∀ f ∈ pairs, P f.2) → P (.object (Fields.ofPairs pairs))

def Token.Holds (P : Json → Prop) (t : Token) : Prop := ∀ j, t = .value j → P j

def OpenContainer.Holds (P : Json → Prop) : OpenContainer → Prop
  | .list items => ∀ j ∈ items, P j
  | .object fields _ => ∀ f ∈ fields, P f.2

def Expected.Holds (P : Json → Prop) : Expected → Prop
  | .nothing j => P j
  | _ => True

/-- What is open and what may come next, as far as values are there already. -/
def StateHolds (P : Json → Prop) (p : List OpenContainer × Expected) : Prop := (∀ c ∈ p.1, c.Holds P) ∧ p.2.Holds P

section
variable {P : Json → Prop}

theorem holds_punctuation {c : CodePoint} {t : Token} (h : punctuation? c = some t) : t.Holds P := by
  unfold punctuation? at h
  repeat' split at h
  all_goals cases h
  all_goals nofun

theorem holds_value {j : Json} (h : P j) : (Token.value j).Holds P := by
  rintro _ ⟨rfl⟩
  exact h

theorem holds_between {done : List Token} (h : ∀ t ∈ done, t.Holds P) (c : CodePoint) :
    ∀ t ∈ (between done c).1, t.Holds P := by
  unfold between
  repeat' split
  · exact h
  · exact h
  · rename_i t ht
    exact List.forall_mem_cons.2 ⟨holds_punctuation ht, h⟩
  · exact h

theorem stateHolds_place {j : Json} {outer : List OpenContainer} (hj : P j)
    (h : ∀ c ∈ outer, c.Holds P) : StateHolds P (place j outer) := by
  cases outer with
  | nil => exact ⟨h, hj⟩
  | cons c outer =>
    obtain ⟨hc, houter⟩ := List.forall_mem_cons.1 h
    cases c with
    | list items => exact ⟨List.forall_mem_cons.2 ⟨List.forall_mem_cons.2 ⟨hj, hc⟩, houter⟩, trivial⟩
    | object fields key => exact ⟨List.forall_mem_cons.2 ⟨List.forall_mem_cons.2 ⟨hj, hc⟩, houter⟩, trivial⟩

theorem stateHolds_begin? {outer : List OpenContainer} {t : Token} {p : List OpenContainer × Expected}
    (h : ∀ c ∈ outer, c.Holds P) (ht : t.Holds P) (hp : begin? outer t = some p) : StateHolds P p := by
  cases t with
  | value j =>
    obtain rfl := Option.some.inj hp
    exact stateHolds_place (ht j rfl) h
  | openList =>
    obtain rfl := Option.some.inj hp
    exact ⟨List.forall_mem_cons.2 ⟨nofun, h⟩, trivial⟩
  | openObject =>
    obtain rfl := Option.some.inj hp
    exact ⟨List.forall_mem_cons.2 ⟨nofun, h⟩, trivial⟩
  | _ => cases hp

theorem stateHolds_name? {outer : List OpenContainer} {t : Token} {p : List OpenContainer × Expected}
    (h : ∀ c ∈ outer, c.Holds P) (hp : name? outer t = some p) : StateHolds P p := by
  unfold name? at hp
  split at hp
  · split at hp
    · obtain rfl := Option.some.inj hp
      obtain ⟨hfields, houter⟩ := List.forall_mem_cons.1 h
      exact ⟨List.forall_mem_cons.2 ⟨hfields, houter⟩, trivial⟩
    · cases hp
  · cases hp

end

namespace KeptByReading

variable {P : Json → Prop} (hP : KeptByReading P)
include hP

theorem of_word {t : Text} {j : Json} (h : word t = .ok j) : P j := by
  unfold word at h
  cases hname : t.lookup names with
  | none =>
    rw [hname] at h
    exact hP.number t j h
  | some named =>
    rw [hname] at h
    obtain rfl := Except.ok.inj h
    obtain ⟨before, after, hnames, -⟩ := List.lookup_eq_some_iff.1 hname
    exact hP.named (t, named) (by simp [hnames])

/-- A scan adds tokens only between words, at the end of a word and at the end of a text. -/
theorem holds_scan {done ts : List Token} {q : Scan} {s : Text} (hdone : ∀ t ∈ done, t.Holds P)
    (h : scan done q s = .ok ts) : ∀ t ∈ ts, t.Holds P := by
  -- Tokens come about by words and texts that end; all other cases fail or go on as they are.
  fun_induction scan done q s with
  | case1 done =>
    obtain rfl := Except.ok.inj h
    simpa using hdone
  | case2 done w =>
    obtain ⟨j, hj, rfl⟩ := map_eq_ok.1 h
    intro t ht
    exact List.forall_mem_cons.2 ⟨holds_value (hP.of_word hj), hdone⟩ t (List.mem_reverse.1 ht)
  | case4 done c cs found q hbetween ih =>
    have hfound := holds_between hdone c
    rw [hbetween] at hfound
    exact ih hfound h
  | case5 done w c cs _ j hj found q hbetween ih =>
    have hword := List.forall_mem_cons.2 ⟨holds_value (hP.of_word hj), hdone⟩
    have hfound := holds_between hword c
    rw [hbetween] at hfound
    exact ih hfound h
  | case8 done d cs ih => exact ih (List.forall_mem_cons.2 ⟨holds_value (hP.text _), hdone⟩) h
  | case3 | case6 | case10 | case14 | case15 => cases h
  | case7 _ _ _ _ _ ih | case9 _ _ _ _ ih | case11 _ _ _ _ _ _ _ ih | case12 _ _ _ ih | case13 _ _ _ _ _ _ _ ih
  | case16 _ _ _ _ _ _ _ _ _ _ ih | case17 _ _ _ _ _ _ _ _ _ _ ih => exact ih hdone h

theorem stateHolds_continue? {outer : List OpenContainer} {t : Token} {p : List OpenContainer × Expected}
    (h : ∀ c ∈ outer, c.Holds P) (hp : continue? outer t = some p) : StateHolds P p := by
  unfold continue? at hp
  split at hp
  · obtain rfl := Option.some.inj hp
    exact ⟨h, trivial⟩
  · obtain rfl := Option.some.inj hp
    obtain ⟨hitems, houter⟩ := List.forall_mem_cons.1 h
    exact stateHolds_place (hP.list _ fun j hj => hitems j (List.mem_reverse.1 hj)) houter
  · obtain rfl := Option.some.inj hp
    exact ⟨h, trivial⟩
  · obtain rfl := Option.some.inj hp
    obtain ⟨hfields, houter⟩ := List.forall_mem_cons.1 h
    exact stateHolds_place (hP.object _ fun f hf => hfields f (List.mem_reverse.1 hf)) houter
  · cases hp

theorem stateHolds_step? {outer : List OpenContainer} {e : Expected} {t : Token}
    {p : List OpenContainer × Expected} (h : ∀ c ∈ outer, c.Holds P) (ht : t.Holds P)
    (hp : step? outer e t = some p) : StateHolds P p := by
  unfold step? at hp
  split at hp
  · exact stateHolds_begin? h ht hp
  · split at hp
    · exact hP.stateHolds_continue? h hp
    · exact stateHolds_begin? h ht hp
  · exact stateHolds_name? h hp
  · split at hp
    · exact hP.stateHolds_continue? h hp
    · exact stateHolds_name? h hp
  · obtain rfl := Option.some.inj hp
    exact ⟨h, trivial⟩
  · exact hP.stateHolds_continue? h hp
  · cases hp

theorem of_ofTokens {outer : List OpenContainer} {e : Expected} {ts : List Token} {j : Json}
    (h : StateHolds P (outer, e)) (hts : ∀ t ∈ ts, t.Holds P) (hj : ofTokens outer e ts = .ok j) : P j := by
  fun_induction ofTokens outer e ts with
  | case1 outer j =>
    obtain rfl := Except.ok.inj hj
    exact h.2
  | case3 outer e t ts next e' hstep hdeep => cases hj
  | case4 outer e t ts next e' hstep hdeep ih =>
    obtain ⟨ht, hts⟩ := List.forall_mem_cons.1 hts
    exact ih (hP.stateHolds_step? h.1 ht hstep) hts hj
  | _ => cases hj

theorem of_read {s : Text} {j : Json} (h : read s = .ok j) : P j := by
  obtain ⟨ts, hts, h⟩ := bind_eq_ok.1 h
  have htokens : ∀ t ∈ ts, t.Holds P := hP.holds_scan (fun t ht => absurd ht List.not_mem_nil) hts
  have hstart : StateHolds P ([], .value) := ⟨fun c hc => absurd hc List.not_mem_nil, trivial⟩
  exact hP.of_ofTokens hstart htokens h

end KeptByReading

theorem isProper_number {t : Text} {j : Json} (h : number t = .ok j) : j.isProper = true := by
  unfold number at h
  dsimp only at h
  repeat' split at h
  all_goals cases h
  all_goals rfl

theorem keptByReading_isProper : KeptByReading (·.isProper = true) where
  text _ := rfl
  named := by decide
  number _ _ := isProper_number
  list _ := isProper_list.2
  object _ := isProper_ofPairs

/-- A document that is read from a text has no object with a key twice. -/
theorem isProper_of_read {s : Text} {j : Json} (h : read s = .ok j) : j.isProper = true :=
  keptByReading_isProper.of_read h

end CallTrace.Json
