import CallTrace.Proofs.Fixture
import CallTrace.Proofs.Json.Fields
import CallTrace.Proofs.Output
import CallTrace.Tool.Run

namespace CallTrace
open Attempt

namespace Reply

theorem sound_start {workdir : Text} {fs : Files} (h : start workdir = .ok fs) : fs.Sound := by
  obtain ⟨_, -, rfl⟩ := map_eq_ok.1 h
  have htop : (⟨FileTree.empty.put top .directory, top⟩ : Files).Sound := by decide
  exact (Files.grown_ensureWay htop (Files.way workdir)).sound htop

theorem sound_putFile {directory : Text} {fs fs' : Files} {f : Text × Text} (hs : fs.Sound)
    (h : putFile directory fs f = .ok fs') : fs'.Sound := by
  obtain ⟨_, hn, rfl⟩ := map_eq_ok.1 h
  exact Output.sound_session hs rfl hn

theorem sound_workdir {i : Invocation} {r : Reply} {t : FileTree} (h : r.workdir i = .ok t) : t.Sound := by
  obtain ⟨fs, hprepared, h⟩ := bind_eq_ok.1 h
  obtain ⟨fs₀, hstart, hinputs⟩ := bind_eq_ok.1 hprepared
  obtain ⟨fs', hfiles, h⟩ := bind_eq_ok.1 h
  obtain ⟨p, -, h⟩ := bind_eq_ok.1 h
  obtain rfl := Except.ok.inj h
  have hs : fs.Sound := foldlM_keeps (fun _ _ _ => sound_putFile) (sound_start hstart) hinputs
  have hs' : fs'.Sound := foldlM_keeps (fun _ _ _ => sound_putFile) hs hfiles
  exact hs'.tree.sound_below p

/-- A result that lists rejections: each is an object, in which the reason may be missing. -/
def Lists (reasons : List (Option Text)) (j : Json) : Prop :=
  ∃ fields : Fields, j = .object fields ∧
    ((reasons = [] ∧ (fields.value? "rejected" = none ∨ fields.value? "rejected" = some .null)) ∨
      ∃ entries, fields.value? "rejected" = some (.list entries) ∧
        List.Forall₂ (fun reason j => ∃ entry : Fields, j = .object entry ∧ entry.value? "error" = reason.map .text)
          reasons entries)

/-- What the result in a working directory tells of rejections. Without a result there are none. -/
inductive Tells (t : FileTree) : List (Option Text) → Prop where
  | unwritten (h : t.find? [Invocation.resultName] = none) : Tells t []
  | written {text : Text} {packed : Bool} {j : Json} {reasons : List (Option Text)}
      (h : t.find? [Invocation.resultName] = some (.file text packed)) (hread : Json.read text = .ok j)
      (hlists : Lists reasons j) : Tells t reasons

theorem firstReason_of_lists {reasons : List (Option Text)} {j : Json} (h : Lists reasons j) :
    (j.fieldOr "rejected" .null >>= firstReason) =
      .ok (reasons.head?.map fun reason => .text (reason.getD [])) := by
  obtain ⟨fields, rfl, ⟨rfl, hnone | hnull⟩ | ⟨entries, hlist, hentries⟩⟩ := h
  · rw [Json.fieldOr_object, hnone]
    rfl
  · rw [Json.fieldOr_object, hnull]
    rfl
  · rw [Json.fieldOr_object, hlist]
    cases hentries with
    | nil => rfl
    | @cons reason _ reasons entries hentry _ =>
      obtain ⟨entry, rfl, herror⟩ := hentry
      show (do return (← (Json.object entry).fieldOr "error" (.text "")).present?) = _
      rw [Json.fieldOr_object, herror]
      cases reason with
      | none => rfl
      | some reason => rfl

theorem rejection_of_tells {directory : Text} {t : FileTree} {reasons : List (Option Text)} (h : Tells t reasons) :
    rejection directory t = .ok (reasons.head?.map fun reason => .text (reason.getD [])) := by
  unfold rejection
  cases h with
  | unwritten h => rw [h]; rfl
  | written h hread hlists =>
    rw [h]
    dsimp only
    rw [parsed, hread, ok_bind]
    exact firstReason_of_lists hlists

def IsTrace (t : FileTree) (p : Place) (e : FileEntry) : Prop := isTraceName p = true ∧ t.find? p = some e

def IsOnlyTrace (t : FileTree) (p : Place) (e : FileEntry) : Prop :=
  IsTrace t p e ∧ ∀ q e', IsTrace t q e' → q = p

section
variable {t : FileTree} (hs : t.Sound)
include hs

theorem mem_traceEntries {p : Place} {e : FileEntry} : (p, e) ∈ traceEntries t ↔ IsTrace t p e := by
  unfold traceEntries
  rw [List.mem_mergeSort, List.mem_filter, hs.mem_entries_iff]
  constructor
  · rintro ⟨⟨-, hfind⟩, hname⟩
    exact ⟨hname, hfind⟩
  · rintro ⟨hname, hfind⟩
    refine ⟨⟨?_, hfind⟩, hname⟩
    rintro rfl
    cases hname

theorem nodup_traceEntries : (traceEntries t).Nodup :=
  (List.mergeSort_perm ..).nodup_iff.2 ((List.Nodup.of_map Prod.fst hs.nodup).filter _)

theorem traceEntries_of_untraced (h : ∀ p, isTraceName p = true → t.find? p = none) : traceEntries t = [] := by
  refine List.eq_nil_iff_forall_not_mem.2 ?_
  rintro ⟨p, e⟩ hmem
  obtain ⟨hname, hfind⟩ := (mem_traceEntries hs).1 hmem
  rw [h p hname] at hfind
  cases hfind

theorem traceEntries_of_isOnlyTrace {p : Place} {e : FileEntry} (h : IsOnlyTrace t p e) :
    traceEntries t = [(p, e)] := by
  obtain ⟨⟨hname, hfind⟩, honly⟩ := h
  have hmem : ∀ f, f ∈ traceEntries t ↔ f ∈ [(p, e)] := by
    rintro ⟨q, e'⟩
    rw [mem_traceEntries hs, List.mem_singleton, Prod.mk.injEq]
    constructor
    · intro hq
      obtain rfl := honly q e' hq
      exact ⟨rfl, Option.some.inj (hq.2.symm.trans hfind)⟩
    · rintro ⟨rfl, rfl⟩
      exact ⟨hname, hfind⟩
  exact List.perm_singleton.1 ((List.perm_ext_iff_of_nodup (nodup_traceEntries hs) (List.nodup_singleton _)).2 hmem)

theorem traceText_of_several {directory : Text} {p q : Place} {e e' : FileEntry} (hp : IsTrace t p e)
    (hq : IsTrace t q e') (hne : p ≠ q) :
    traceText directory t = .error (.severalTraceFiles ((traceEntries t).map fun f => fileName f.1)) := by
  have hpmem := (mem_traceEntries hs).2 hp
  have hqmem := (mem_traceEntries hs).2 hq
  unfold traceText
  generalize traceEntries t = entries at hpmem hqmem
  -- Neither none nor one alone can be both of them.
  match entries with
  | [] => cases hpmem
  | [f] =>
    obtain rfl := List.mem_singleton.1 hpmem
    exact absurd (Prod.mk.inj (List.mem_singleton.1 hqmem)).1.symm hne
  | (_, .file ..) :: _ :: _ => rfl
  | (_, .directory) :: _ :: _ => rfl

end

end Reply

namespace Settings

variable {s : Settings}

/-- No layer has taken from the adapter the abilities to look for a rejection and for a trace. -/
structure Looks (s : Settings) : Prop where
  rejection : s.parts.has "_find_rejection" = false
  trace : s.parts.has "_find_trace_file" = false

/-- What is made of a working directory by what lies in it, if the process did not fail. -/
structure Answer [Limits] (s : Settings) (workdir : Text) (t : FileTree) (result : Except Fault Trace) : Prop where
  /-- Nothing but the first reason counts if there is a rejection. -/
  rejected : ∀ reason later, Reply.Tells t (reason :: later) →
    result = (Outcome.rejection? (reason.getD [])).elim (.error (.unknownErrorText (reason.getD [])))
      fun outcome => .ok (.ended outcome [])
  untraced : Reply.Tells t [] → (∀ p, Reply.isTraceName p = true → t.find? p = none) →
    result = .error (.noTraceFile workdir)
  traced : Reply.Tells t [] → ∀ p text packed, Reply.IsOnlyTrace t p (.file text packed) →
    result = if text.isEmpty then .error (.emptyTraceFile (Reply.fileName p))
      else Reply.readTrace (.ofJson s.stackSize) text
  several : Reply.Tells t [] → ∀ p q e e', Reply.IsTrace t p e → Reply.IsTrace t q e' → p ≠ q →
    result = .error (.severalTraceFiles ((Reply.traceEntries t).map fun f => Reply.fileName f.1))
  /-- A directory passes for a trace until it is opened. -/
  directory : Reply.Tells t [] → ∀ p, Reply.IsOnlyTrace t p .directory →
    result = .error (.file (.isDirectory (Path.join workdir (Path.ofNames p))))
  /-- So it does for a result. -/
  blocked : t.find? [Invocation.resultName] = some .directory →
    result = .error (.file (.isDirectory (Path.join workdir Invocation.resultName)))

theorem conclude_of_rejected [Limits] (hlooks : s.Looks) {workdir : Text} {t : FileTree} {reason : Option Text}
    {later : List (Option Text)} (h : Reply.Tells t (reason :: later)) :
    s.conclude workdir t = (Outcome.rejection? (reason.getD [])).elim (.error (.unknownErrorText (reason.getD [])))
      fun outcome => .ok (.ended outcome []) := by
  unfold conclude need
  rw [hlooks.rejection, if_neg Bool.false_ne_true, ok_bind, Reply.rejection_of_tells h, ok_bind]
  show (Outcome.ofRejectionText (reason.getD []) >>= fun outcome => .ok (Trace.ended outcome [])) = _
  unfold Outcome.ofRejectionText
  cases Outcome.rejection? (reason.getD []) <;> rfl

theorem conclude_of_tells_nil [Limits] (hlooks : s.Looks) {workdir : Text} {t : FileTree} (h : Reply.Tells t []) :
    s.conclude workdir t =
      Reply.traceText workdir t >>= fun text => Reply.readTrace (.ofJson s.stackSize) text := by
  unfold conclude need
  rw [hlooks.rejection, if_neg Bool.false_ne_true, ok_bind, Reply.rejection_of_tells h, ok_bind, hlooks.trace,
    if_neg Bool.false_ne_true]
  rfl

theorem answer_conclude [Limits] (hlooks : s.Looks) {t : FileTree} (hs : t.Sound) (workdir : Text) :
    s.Answer workdir t (s.conclude workdir t) where
  rejected reason later h := conclude_of_rejected hlooks h
  untraced h hnone := by
    rw [conclude_of_tells_nil hlooks h, Reply.traceText, Reply.traceEntries_of_untraced hs hnone]
    rfl
  traced h p text packed honly := by
    rw [conclude_of_tells_nil hlooks h, Reply.traceText, Reply.traceEntries_of_isOnlyTrace hs honly]
    dsimp only
    split <;> rfl
  several h p q e e' hp hq hne := by
    rw [conclude_of_tells_nil hlooks h, Reply.traceText_of_several hs hp hq hne]
    rfl
  directory h p honly := by
    rw [conclude_of_tells_nil hlooks h, Reply.traceText, Reply.traceEntries_of_isOnlyTrace hs honly]
    rfl
  blocked h := by
    unfold conclude need Reply.rejection
    rw [hlooks.rejection, if_neg Bool.false_ne_true, ok_bind, h]
    rfl

/-- An invocation is made for the fork and the working directory that it is asked for. -/
theorem of_invocation {workdir : Text} {fork : Json} {env : Environment} {pre : WorldState} {tx : Transaction}
    {i : Invocation} (h : s.invocation workdir fork env pre tx = .ok i) : i.fork = fork ∧ i.workdir = workdir := by
  obtain ⟨_, -, h⟩ := bind_eq_ok.1 h
  obtain ⟨_, -, h⟩ := bind_eq_ok.1 h
  obtain ⟨_, -, h⟩ := bind_eq_ok.1 h
  obtain ⟨_, -, h⟩ := bind_eq_ok.1 h
  obtain ⟨_, -, h⟩ := bind_eq_ok.1 h
  obtain ⟨_, -, h⟩ := bind_eq_ok.1 h
  obtain ⟨_, -, h⟩ := bind_eq_ok.1 h
  obtain rfl := Except.ok.inj h
  exact ⟨rfl, rfl⟩

theorem result_machine [Limits] {tool : Tool} {workdir : Text} {fork : Json} {env : Environment} {pre : WorldState}
    {tx : Transaction} {i : Invocation} (hi : s.invocation workdir fork env pre tx = .ok i) :
    (s.machine tool workdir fork env pre tx).result = s.read i (tool.run i) := by
  show (Run.ofExcept (s.invocation workdir fork env pre tx) >>= s.execute tool).result = _
  rw [Run.result_bind, Run.ofExcept, hi]
  rfl

theorem read_of_failed [Limits] {i : Invocation} {r : Reply} {fs : Files} {fault : Fault}
    (hprepared : Reply.prepared i = .ok fs) (hfault : r.failure = some fault) :
    s.read i r = .error (s.failureOf i fault) := by
  rw [read, hprepared, ok_bind, hfault]
  rfl

theorem read_of_succeeded [Limits] {i : Invocation} {r : Reply} {t : FileTree} (ht : r.workdir i = .ok t)
    (hnone : r.failure = none) : s.read i r = s.conclude i.workdir t := by
  obtain ⟨fs, hprepared, hleft⟩ := bind_eq_ok.1 ht
  rw [read, hprepared, ok_bind, hnone]
  dsimp only
  rw [hleft, ok_bind]

/-- A process that failed is a failure of the tool, whatever was written or could not be; of one that did not, the
answer is told by the working directory alone. -/
theorem answer_machine [Limits] (hlooks : s.Looks) (tool : Tool) {workdir : Text} {fork : Json} {env : Environment}
    {pre : WorldState} {tx : Transaction} {i : Invocation} {fs : Files}
    (hi : s.invocation workdir fork env pre tx = .ok i) (hprepared : Reply.prepared i = .ok fs) :
    (∀ fault, (tool.run i).failure = some (.process fault) →
        (s.machine tool workdir fork env pre tx).result = .error (.tool s.binary fork fault)) ∧
      ∀ t, (tool.run i).failure = none → (tool.run i).workdir i = .ok t →
        s.Answer workdir t (s.machine tool workdir fork env pre tx).result := by
  obtain ⟨hfork, hworkdir⟩ := of_invocation hi
  rw [result_machine hi]
  refine ⟨fun fault hfault => ?_, fun t hnone ht => ?_⟩
  · rw [read_of_failed hprepared hfault, ← hfork]
    rfl
  · rw [read_of_succeeded ht hnone, hworkdir]
    exact answer_conclude hlooks (Reply.sound_workdir ht) workdir

def plainAdapter : Settings := ⟨"GethT8n", .text "evm", .int 10, .int 10, .bool false, []⟩

def plainEnvironment : Environment := ⟨1, 16, 2, 3, none, none, none, none, .empty, []⟩

def plainCall : Transaction := ⟨10, 11, some 0, 0, 32, 0, [], none, 1, .legacy 1⟩

def plainInvocation : Except Fault Invocation :=
  plainAdapter.invocation "/tmp/w" (.text "London") plainEnvironment .empty plainCall

def plainAnswer [Limits] (tool : Tool) : Except Fault Trace :=
  (plainAdapter.machine tool "/tmp/w" (.text "London") plainEnvironment .empty plainCall).result

theorem looks_plainAdapter : plainAdapter.Looks := ⟨rfl, rfl⟩

def acting (files : List (Text × Text)) (failure : Option Fault) : Tool where
  version _ := .ok ""
  run _ := ⟨files, failure⟩

def found (files : List (Text × Text)) : Except Fault (Option FileEntry × List (Place × FileEntry)) := do
  let i ← plainInvocation
  let t ← (Reply.mk files none).workdir i
  return (t.find? [Invocation.resultName], t.entries.filter fun e => Reply.isTraceName e.1)

theorem of_found {files : List (Text × Text)} {result : Option FileEntry} {traces : List (Place × FileEntry)}
    (h : found files = .ok (result, traces)) :
    ∃ i t, plainInvocation = .ok i ∧ (Reply.mk files none).workdir i = .ok t ∧
      t.find? [Invocation.resultName] = result ∧ ∀ p e, Reply.IsTrace t p e ↔ (p, e) ∈ traces := by
  obtain ⟨i, hi, h⟩ := bind_eq_ok.1 h
  obtain ⟨t, ht, h⟩ := bind_eq_ok.1 h
  obtain ⟨rfl, rfl⟩ := Prod.mk.inj (Except.ok.inj h)
  refine ⟨i, t, hi, ht, rfl, fun p e => ?_⟩
  rw [← Reply.mem_traceEntries (Reply.sound_workdir ht), Reply.traceEntries, List.mem_mergeSort]

def rejections : Text := "\x7b\"rejected\": [\x7b\"error\": \"Insufficient funds for gas\"\x7d, \x7b\x7d]\x7d"

def firstOfRejections : Text := "Insufficient funds for gas"

def rejectedFiles : List (Text × Text) := [("a.jsonl", ""), ("b/c.jsonl", "x"), ("result.json", rejections)]

theorem answer_machine_rejectedFiles : letI : Limits := .unbounded
    plainAdapter.Looks ∧ ∃ i t, plainInvocation = .ok i ∧
      ((acting rejectedFiles none).run i).workdir i = .ok t ∧
      Reply.Tells t [some firstOfRejections, none] ∧
      plainAnswer (acting rejectedFiles none) = .ok (.ended .insufficientFunds []) ∧
      plainAnswer (acting rejectedFiles (some (.process (.timeout (.int 10))))) =
        .error (.tool (.text "evm") (.text "London") (.timeout (.int 10))) := by
  let _ : Limits := .unbounded
  have hfound : found rejectedFiles = .ok (some (.file rejections false),
      [(["a.jsonl"], .file "" false), (["b", "c.jsonl"], .file "x" false)]) := eq_ok_of_toOption (by decide +kernel)
  have hread : Json.read rejections = .ok (.object
      [("rejected", .list [.object [("error", .text firstOfRejections)], .object []])]) := rfl
  have hwords : Outcome.rejection? firstOfRejections = some .insufficientFunds := by decide +kernel
  obtain ⟨i, t, hi, ht, hresult, -⟩ := of_found hfound
  have htells : Reply.Tells t [some firstOfRejections, none] :=
    .written hresult hread
      ⟨_, rfl, .inr ⟨_, rfl, .cons ⟨_, rfl, rfl⟩ (.cons ⟨_, rfl, rfl⟩ .nil)⟩⟩
  obtain ⟨fs, hprepared, -⟩ := bind_eq_ok.1 ht
  have hanswer := (answer_machine looks_plainAdapter (acting rejectedFiles none) hi hprepared).2 t rfl ht
  have hrejected := hanswer.rejected _ _ htells
  rw [Option.getD_some, hwords] at hrejected
  have hfailed := (answer_machine looks_plainAdapter
    (acting rejectedFiles (some (.process (.timeout (.int 10))))) hi hprepared).1 (.timeout (.int 10)) rfl
  exact ⟨looks_plainAdapter, i, t, hi, ht, htells, hrejected, hfailed⟩

def strayDirectories : List (Text × Text) := [("a.jsonl/x", ""), ("b.jsonl/y", "")]

/-- Where there is no trace at all, directories can pass for several. -/
theorem not_noTraceFile_strayDirectories : letI : Limits := .unbounded
    ∃ i t, plainInvocation = .ok i ∧ ((acting strayDirectories none).run i).workdir i = .ok t ∧
      Reply.Tells t [] ∧ (∀ p text packed, ¬ Reply.IsTrace t p (.file text packed)) ∧
      ∃ names, plainAnswer (acting strayDirectories none) = .error (.severalTraceFiles names) := by
  let _ : Limits := .unbounded
  have hfound : found strayDirectories = .ok (none, [(["a.jsonl"], .directory), (["b.jsonl"], .directory)]) :=
    eq_ok_of_toOption (by decide +kernel)
  obtain ⟨i, t, hi, ht, hresult, htraces⟩ := of_found hfound
  have htells : Reply.Tells t [] := .unwritten hresult
  have hanswer := answer_conclude looks_plainAdapter (Reply.sound_workdir ht) i.workdir
  have hseveral := hanswer.several htells ["a.jsonl"] ["b.jsonl"] .directory .directory
    ((htraces _ _).2 (by simp)) ((htraces _ _).2 (by simp)) (by decide)
  rw [← read_of_succeeded (r := (acting strayDirectories none).run i) ht rfl, ← result_machine hi] at hseveral
  refine ⟨i, t, hi, ht, htells, fun p text packed hfile => ?_, _, hseveral⟩
  simpa using (htraces _ _).1 hfile

end Settings

end CallTrace
