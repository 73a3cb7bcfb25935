import CallTrace.Proofs.Attempt
import CallTrace.Proofs.Json.Fields
import CallTrace.Proofs.Lookup
import CallTrace.Settings.Basic

namespace CallTrace
open Attempt

namespace Variables

def spelling? (vars : Variables) (name : Text) : Option Text := (mark ++ name).lookup vars

def unreadable? (vars : Variables) (name : Text) (spells : Text → Bool) (fault : Text → Json → Fault) :
    Option Fault :=
  match vars.spelling? name with
  | none => none
  | some s => if spells s then none else some (fault (mark ++ name) (.text s))

def badTimeout? (vars : Variables) : Option Fault :=
  vars.unreadable? "TIMEOUT" (fun s => (Number.real? s).isSome) .badNumberSetting

def badStackSize? (vars : Variables) : Option Fault :=
  vars.unreadable? "STACK_SIZE" (fun s => (Number.integer? s).isSome) .badIntegerSetting

/-- What is found wrong with the variables: of the two numbers among them the first that cannot be read. -/
def complaint? (vars : Variables) : Option Fault := vars.badTimeout?.or vars.badStackSize?

section
variable {vars : Variables} {name : Text}

theorem value_eq (vars : Variables) (name : Text) (default : Json) :
    vars.value name (some default) = .ok (((vars.spelling? name).map Json.text).getD default) := by
  unfold value spelling?
  cases (mark ++ name).lookup vars <;> rfl

theorem text_eq (vars : Variables) (name default : Text) :
    vars.text name (some (.text default)) = .ok ((vars.spelling? name).getD default) := by
  unfold text
  rw [value_eq, ok_bind]
  cases vars.spelling? name <;> rfl

theorem flag_eq (vars : Variables) (name : Text) (default : Bool) :
    vars.flag name (some (.bool default)) =
      .ok (((vars.spelling? name).map (·.isOneOf affirmative)).getD default) := by
  unfold flag
  rw [value_eq, ok_bind]
  cases vars.spelling? name <;> rfl

theorem real_eq {default : Json} {x : Binary64} (h : default.toReal = .ok x) : vars.real name (some default) =
    (vars.unreadable? name (fun s => (Number.real? s).isSome) .badNumberSetting).elim
      (.ok (((vars.spelling? name).bind Number.real?).getD x)) .error := by
  unfold real unreadable?
  rw [value_eq, ok_bind]
  cases vars.spelling? name with
  | none =>
    show onUnreadable _ default.toReal = _
    rw [h]
    rfl
  | some s =>
    show onUnreadable _ ((Number.real? s).elim (.error .unreadableNumber) .ok) = _
    cases hs : Number.real? s <;> simp [hs, onUnreadable]

theorem integer_eq {default : Json} {n : Int} (h : default.toInt = .ok n) : vars.integer name (some default) =
    (vars.unreadable? name (fun s => (Number.integer? s).isSome) .badIntegerSetting).elim
      (.ok (((vars.spelling? name).bind Number.integer?).getD n)) .error := by
  unfold integer unreadable?
  rw [value_eq, ok_bind]
  cases vars.spelling? name with
  | none =>
    show onUnreadable _ default.toInt = _
    rw [h]
    rfl
  | some s =>
    show onUnreadable _ ((Number.integer? s).elim (.error .unreadableNumber) .ok) = _
    cases hs : Number.integer? s <;> simp [hs, onUnreadable]

theorem unreadable?_eq_some {spells : Text → Bool} {fault : Text → Json → Fault} {f : Fault}
    (h : vars.unreadable? name spells fault = some f) : ∃ s, f = fault (mark ++ name) (.text s) := by
  unfold unreadable? at h
  split at h
  · cases h
  · rename_i s _
    split at h
    · cases h
    · exact ⟨s, (Option.some.inj h).symm⟩

theorem complaint?_eq_some {f : Fault} (h : vars.complaint? = some f) :
    (∃ s, f = .badNumberSetting (mark ++ "TIMEOUT") (.text s)) ∨
      ∃ s, f = .badIntegerSetting (mark ++ "STACK_SIZE") (.text s) := by
  unfold complaint? at h
  rcases Option.or_eq_some_iff.1 h with h | ⟨-, h⟩
  · exact .inl (unreadable?_eq_some h)
  · exact .inr (unreadable?_eq_some h)

end

end Variables

namespace Preferences

def names (p : Preferences) : List Text :=
  let sources : List (Option Json × Text) := [(p.binary, "GETH_BINARY"), (p.timeout, "TIMEOUT"),
    (p.stackSize, "STACK_SIZE"), (p.keepWorkdir, "KEEP_WORKDIR")]
  sources.filterMap fun s => s.1.map fun _ => s.2

/-- Variables that differ at most in those whose settings are given outright. -/
def Shields (p : Preferences) (vars vars' : Variables) : Prop :=
  ∀ name : Text, (∀ own ∈ p.names, name ≠ Variables.mark ++ own) → name.lookup vars = name.lookup vars'

theorem Shields.spelling?_eq {p : Preferences} {vars vars' : Variables} (h : p.Shields vars vars') (name : Text)
    (hname : name ∉ p.names) : vars.spelling? name = vars'.spelling? name := by
  refine h _ fun own hown he => ?_
  rw [List.append_cancel_left he] at hname
  exact hname hown

end Preferences

namespace Settings

variable {given : Preferences} {layer : Layer} {vars vars' : Variables}

def settled (given : Preferences) (layer : Layer) (vars : Variables) : Settings :=
  { name := layer.name
    binary := first given.binary (Preferences.ofFields layer.set).binary
      (.text ((vars.spelling? "GETH_BINARY").getD defaultBinary))
    timeout := first given.timeout (Preferences.ofFields layer.set).timeout
      (.real (((vars.spelling? "TIMEOUT").bind Number.real?).getD ((Binary64.ofInt? defaultTimeout).getD .nan)))
    stackSize := first given.stackSize (Preferences.ofFields layer.set).stackSize
      (.int (((vars.spelling? "STACK_SIZE").bind Number.integer?).getD defaultStackSize))
    keepWorkdir := first given.keepWorkdir (Preferences.ofFields layer.set).keepWorkdir
      (.bool (((vars.spelling? "KEEP_WORKDIR").map (·.isOneOf Variables.affirmative)).getD false))
    parts := layer.set }

theorem choose_eq (given : Preferences) (layer : Layer) (vars : Variables) :
    choose given layer vars = vars.complaint?.elim (.ok (settled given layer vars)) .error := by
  have hdefault : (Json.int defaultTimeout).toReal = .ok ((Binary64.ofInt? defaultTimeout).getD .nan) :=
    eq_ok_of_toOption (by decide +kernel)
  have htimeout : vars.real "TIMEOUT" (some (.int defaultTimeout)) = _ := Variables.real_eq hdefault
  have hstackSize : vars.integer "STACK_SIZE" (some (.int defaultStackSize)) = _ := Variables.integer_eq rfl
  rw [← Variables.badTimeout?] at htimeout
  rw [← Variables.badStackSize?] at hstackSize
  unfold choose Variables.complaint?
  rw [Variables.text_eq, htimeout, hstackSize, Variables.flag_eq, ok_bind]
  cases vars.badTimeout? with
  | some f => rfl
  | none => cases vars.badStackSize? <;> rfl

/-- A value that is given hides what the variables say. -/
theorem first_congr {given configured : Option Json} {environment environment' : Json}
    (h : given = none → environment = environment') :
    first given configured environment = first given configured environment' := by
  cases given with
  | none => rw [h rfl]
  | some j => rfl

theorem settled_eq_of_shields (layer : Layer) (h : given.Shields vars vars') :
    settled given layer vars = settled given layer vars' := by
  unfold settled
  congr 1
  · refine first_congr fun hnone => ?_
    rw [h.spelling?_eq "GETH_BINARY" (by simp [Preferences.names, hnone])]
  · refine first_congr fun hnone => ?_
    rw [h.spelling?_eq "TIMEOUT" (by simp [Preferences.names, hnone])]
  · refine first_congr fun hnone => ?_
    rw [h.spelling?_eq "STACK_SIZE" (by simp [Preferences.names, hnone])]
  · refine first_congr fun hnone => ?_
    rw [h.spelling?_eq "KEEP_WORKDIR" (by simp [Preferences.names, hnone])]

theorem check_eq_error {s : Settings} {f : Fault} (h : s.check = .error f) :
    f = .unsuited ∨ f = .badTimeout s.timeout ∨ f = .badStackSize s.stackSize := by
  have hnumber : ∀ j : Json, j.toNumber = .error f → f = .unsuited := by
    intro j hj
    unfold Json.toNumber at hj
    cases hn : j.number? <;> rw [hn] at hj <;> cases hj
    rfl
  rcases bind_eq_error.1 h with h | ⟨timeout, -, h⟩
  · exact .inl (hnumber _ h)
  dsimp only at h
  split at h
  · exact .inr (.inl (Except.error.inj h).symm)
  rcases bind_eq_error.1 h with h | ⟨stackSize, -, h⟩
  · exact .inl (hnumber _ h)
  split at h
  · exact .inr (.inr (Except.error.inj h).symm)
  · cases h

theorem resolve_of_complaint {f : Fault} (hlayer : essentials.any layer.sets = false) (h : vars.complaint? = some f) :
    resolve given layer vars = .error f := by
  unfold resolve
  rw [hlayer, choose_eq, h]
  rfl

theorem resolve_of_no_complaint (hlayer : essentials.any layer.sets = false) (h : vars.complaint? = none) :
    resolve given layer vars = (settled given layer vars).check.map fun _ => settled given layer vars := by
  unfold resolve
  rw [hlayer, choose_eq, h]
  show (settled given layer vars).check >>= _ = _
  cases (settled given layer vars).check <;> rfl

/-- Settings that are refused for what they are, are not refused for what a variable says. -/
theorem resolve_ne_complaint {f : Fault} (hlayer : essentials.any layer.sets = false) (h : vars.complaint? = none)
    (hf : vars'.complaint? = some f) : resolve given layer vars ≠ .error f := by
  rw [resolve_of_no_complaint hlayer h]
  intro hcheck
  have hcauses := check_eq_error (map_eq_error.1 hcheck)
  rcases Variables.complaint?_eq_some hf with ⟨s, rfl⟩ | ⟨s, rfl⟩
  · rcases hcauses with hcause | hcause | hcause <;> cases hcause
  · rcases hcauses with hcause | hcause | hcause <;> cases hcause

theorem resolve_eq_iff (h : given.Shields vars vars') (hlayer : essentials.any layer.sets = false) :
    resolve given layer vars = resolve given layer vars' ↔ vars.complaint? = vars'.complaint? := by
  cases hc : vars.complaint? with
  | none =>
    cases hc' : vars'.complaint? with
    | none =>
      rw [resolve_of_no_complaint hlayer hc, resolve_of_no_complaint hlayer hc', settled_eq_of_shields layer h]
      exact iff_of_true rfl rfl
    | some f =>
      rw [resolve_of_complaint hlayer hc']
      exact iff_of_false (resolve_ne_complaint hlayer hc hc') nofun
  | some f =>
    rw [resolve_of_complaint hlayer hc]
    cases hc' : vars'.complaint? with
    | none => exact iff_of_false (resolve_ne_complaint hlayer hc' hc).symm nofun
    | some f' => rw [resolve_of_complaint hlayer hc', Except.error.injEq, Option.some.injEq]

def ofLayers (layers : List Json) (given : Preferences) (vars : Variables) : Except Fault Settings := do
  resolve given (← Layer.ofList layers) vars

/-- Layers that can be put on one another and leave the adapter able to be made. -/
def Usable (layers : List Json) : Prop :=
  ∃ layer, Layer.ofList layers = .ok layer ∧ essentials.any layer.sets = false

/-- Settings that are given outright shield from their variables, but for what is wrong with those: variables that
differ in nothing else lead to the same settings, or to the same fault, exactly if the same is found wrong with them. -/
theorem ofLayers_eq_iff_of_shields (layers : List Json) (h : given.Shields vars vars') :
    ofLayers layers given vars = ofLayers layers given vars' ↔
      (Usable layers → vars.complaint? = vars'.complaint?) := by
  unfold ofLayers
  cases hlayer : Layer.ofList layers with
  | error f => exact iff_of_true rfl fun ⟨_, husable, _⟩ => by rw [hlayer] at husable; cases husable
  | ok layer =>
    rw [ok_bind, ok_bind]
    cases hessential : essentials.any layer.sets with
    | true =>
      have hunsuited : ∀ vars, resolve given layer vars = .error .unsuited := by
        intro vars
        unfold resolve
        rw [hessential]
        rfl
      rw [hunsuited, hunsuited]
      refine iff_of_true rfl fun ⟨layer', husable, hnone⟩ => ?_
      rw [← Except.ok.inj (hlayer.symm.trans husable), hessential] at hnone
      cases hnone
    | false =>
      rw [resolve_eq_iff h hessential]
      exact ⟨fun hsame _ => hsame, fun hsame => hsame ⟨layer, hlayer, hessential⟩⟩

def outright : Preferences := { timeout := some (.int 5), stackSize := some (.int 0) }

def twoLayers : List Json :=
  [.object [("timeout", .int 7), ("binary", .text "geth")], .object [("binary", .null), ("keep_workdir", .bool true)]]

def slowVariables : Variables :=
  [("EVMTRACE_TIMEOUT", "1e3"), ("EVMTRACE_GETH_BINARY", "/opt/evm"), ("EVMTRACE_STACK_SIZE", " 3 ")]

def quickVariables : Variables := [("EVMTRACE_GETH_BINARY", "/opt/evm"), ("EVMTRACE_TIMEOUT", "0.5")]

theorem shields_outright : outright.Shields slowVariables quickVariables := by
  intro name hname
  have htimeout : name ≠ "EVMTRACE_TIMEOUT" := hname "TIMEOUT" (by simp [Preferences.names, outright])
  have hstackSize : name ≠ "EVMTRACE_STACK_SIZE" := hname "STACK_SIZE" (by simp [Preferences.names, outright])
  simp [Text.lookup, slowVariables, quickVariables, lookup_cons_ite, htimeout, hstackSize]

theorem ofLayers_eq_iff_of_shields_outright : outright.Shields slowVariables quickVariables ∧
    slowVariables.complaint? = none ∧ quickVariables.complaint? = none ∧
    ofLayers twoLayers outright slowVariables = ofLayers twoLayers outright quickVariables ∧
    (ofLayers twoLayers outright slowVariables).map (fun s => (s.binary.plain, s.timeout.plain, s.stackSize.plain)) =
      .ok ("/opt/evm", "5", "0") := by
  have hslow : slowVariables.complaint? = none := Option.isNone_iff_eq_none.1 (by decide +kernel)
  have hquick : quickVariables.complaint? = none := Option.isNone_iff_eq_none.1 (by decide +kernel)
  have hsame := (ofLayers_eq_iff_of_shields twoLayers shields_outright).2 fun _ => hslow.trans hquick.symm
  exact ⟨shields_outright, hslow, hquick, hsame, eq_ok_of_toOption (by decide +kernel)⟩

/-- A time limit that is given outright does not shield from a variable for it that holds no number. -/
theorem not_shielded_unreadableTimeout :
    outright.Shields [("EVMTRACE_TIMEOUT", "soon")] [] ∧
      ofLayers [] outright [("EVMTRACE_TIMEOUT", "soon")] =
        .error (.badNumberSetting "EVMTRACE_TIMEOUT" (.text "soon")) ∧
      ∃ s, ofLayers [] outright [] = .ok s ∧ s.timeout = .int 5 := by
  refine ⟨fun name hname => ?_, rfl, _, rfl, rfl⟩
  have htimeout : name ≠ "EVMTRACE_TIMEOUT" := hname "TIMEOUT" (by simp [Preferences.names, outright])
  simp [Text.lookup, lookup_cons_ite, htimeout]

end Settings

end CallTrace
