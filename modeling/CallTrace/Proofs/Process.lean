import CallTrace.Proofs.Attempt
import CallTrace.Tool.Launched
import CallTrace.Tool.Run
import CallTrace.Tool.Workdir

namespace CallTrace
open Attempt

/-- A command that a machine can be asked for: it names a program, and each of its words can be handed over. -/
structure IsCommand (command : List Text) (program : Text) : Prop where
  program : command.head? = some program
  words : ∃ octets, command.mapM Path.octets = .ok octets

variable {limit : Json} {allowed : Option Number} {command : List Text} {program text : Text}

/-- What takes no longer than a process that is done in time is done in time, too. -/
theorem isWithinLimit_of_le {m n : Nat} (h : m ≤ n) (hn : isWithinLimit allowed (some n) = true) :
    isWithinLimit allowed (some m) = true := by
  cases allowed with
  | none => rfl
  | some x =>
    change (x.extent?).any _ = true at hn ⊢
    -- Nothing is within a limit that is not a number.
    cases hx : x.extent? with
    | none =>
      rw [hx] at hn
      cases hn
    | some e =>
      rw [hx, Option.any_some] at hn
      rw [Option.any_some]
      cases e with
      | least => cases hn
      | greatest => rfl
      | fraction num den =>
        have hlt := of_decide_eq_true hn
        have hle : (m : Int) * den ≤ n * den := Int.mul_le_mul_of_nonneg_right (by omega) (by omega)
        exact decide_eq_true (Int.lt_of_le_of_lt hle hlt)

namespace Launcher

theorem run_eq (launch : Launcher) (hcommand : IsCommand command program) (hlimit : timeLimit limit = .ok allowed) :
    launch.run limit command = match launch command with
      | .error reason => .error (.process (.launch (.text program) (some reason)))
      | .ok course =>
        if isWithinLimit allowed course.micros then .ok course.completion else .error (.process (.timeout limit)) := by
  obtain ⟨hprogram, octets, hwords⟩ := hcommand
  obtain ⟨rest, rfl⟩ := List.head?_eq_some_iff.1 hprogram
  unfold run
  dsimp only
  rw [hwords, ok_bind]
  cases launch (program :: rest) with
  | error reason => rfl
  | ok course =>
    dsimp only
    rw [hlimit]
    rfl

/-- A process that cannot be started, one that is not done in time and one that ends badly are told apart, the first of
these that holds; otherwise the text that was written is what the command comes to. -/
theorem execute_spec (launch : Launcher) (hcommand : IsCommand command program)
    (hlimit : timeLimit limit = .ok allowed) :
    (∀ reason, launch command = .error reason →
      launch.execute limit command = .error (.process (.launch (.text program) (some reason)))) ∧
    ∀ course, launch command = .ok course →
      (isWithinLimit allowed course.micros = false →
        launch.execute limit command = .error (.process (.timeout limit))) ∧
      (isWithinLimit allowed course.micros = true → course.completion.status ≠ 0 → launch.execute limit command =
        .error (.process (.exit (.int course.completion.status) course.completion.errorText))) ∧
      (isWithinLimit allowed course.micros = true → course.completion.status = 0 →
        launch.execute limit command = .ok course.completion.text) := by
  have hrun := run_eq launch hcommand hlimit
  unfold execute
  refine ⟨fun reason hlaunch => ?_,
    fun course hlaunch => ⟨fun hlate => ?_, fun hdone hbad => ?_, fun hdone hwell => ?_⟩⟩
  all_goals
    rw [hlaunch] at hrun
    dsimp only at hrun
  · rw [hrun]
    rfl
  · rw [hrun, if_neg (Bool.eq_false_iff.1 hlate)]
    rfl
  · rw [hrun, if_pos hdone, ok_bind, Completion.success, if_neg hbad]
  · rw [hrun, if_pos hdone, ok_bind, Completion.success, if_pos hwell]

/-- A process that was started comes to its text, takes too long or ends badly. -/
theorem execute_of_started {launch : Launcher} {course : Course} (hcommand : IsCommand command program)
    (hlimit : timeLimit limit = .ok allowed) (hlaunch : launch command = .ok course) :
    launch.execute limit command = .ok course.completion.text ∨
      launch.execute limit command = .error (.process (.timeout limit)) ∨
      launch.execute limit command =
        .error (.process (.exit (.int course.completion.status) course.completion.errorText)) := by
  obtain ⟨hlate, hbad, hwell⟩ := (launch.execute_spec hcommand hlimit).2 course hlaunch
  cases hdone : isWithinLimit allowed course.micros with
  | false => exact .inr (.inl (hlate hdone))
  | true =>
    by_cases hstatus : course.completion.status = 0
    · exact .inl (hwell hdone hstatus)
    · exact .inr (.inr (hbad hdone hstatus))

/-- So whatever a command fails by is a fault of its process. -/
theorem execute_fails_by_process {launch : Launcher} (hcommand : IsCommand command program)
    (hlimit : timeLimit limit = .ok allowed) {f : Fault} (h : launch.execute limit command = .error f) :
    ∃ fault, f = .process fault := by
  cases hlaunch : launch command with
  | error reason =>
    exact ⟨_, Except.error.inj (h.symm.trans ((launch.execute_spec hcommand hlimit).1 reason hlaunch))⟩
  | ok course =>
    rcases execute_of_started hcommand hlimit hlaunch with hwell | hlate | hbad
    · cases h.symm.trans hwell
    · exact ⟨_, Except.error.inj (h.symm.trans hlate)⟩
    · exact ⟨_, Except.error.inj (h.symm.trans hbad)⟩

end Launcher

/-- A tool that cannot be started has no version, which ends nothing; any other tool tells one or fails. -/
theorem Settings.result_version_eq_none_iff {s : Settings} {launch : Launcher} (hbinary : s.binary = .text program)
    (hcommand : IsCommand [program, "--version"] program) :
    (s.version (Tool.ofLauncher launch)).result = .ok none ↔
      ∃ reason, launch [program, "--version"] = .error reason := by
  have hlimit : timeLimit Tool.versionTimeout = .ok (some (.whole 5)) := rfl
  have hversion : (Tool.ofLauncher launch).version s.binary =
      launch.execute Tool.versionTimeout [program, "--version"] := by
    rw [hbinary]
    rfl
  unfold version
  rw [hversion]
  cases hlaunch : launch [program, "--version"] with
  | error reason =>
    rw [(launch.execute_spec hcommand hlimit).1 reason hlaunch]
    exact iff_of_true rfl ⟨reason, rfl⟩
  | ok course =>
    refine iff_of_false ?_ (by rintro ⟨_, ⟨⟩⟩)
    rcases Launcher.execute_of_started hcommand hlimit hlaunch with h | h | h
    all_goals
      rw [h]
      nofun

namespace FileTree

theorem find?_remove {p q : Place} (h : p <+: q) (hq : q ≠ []) (t : FileTree) : (t.remove p).find? q = none := by
  have hnone : (t.remove p).entries.lookup q = none := by
    rw [List.lookup_eq_none_iff]
    intro e he
    have hkept := (List.mem_filter.1 he).2
    simp only [bne_iff_ne, ne_eq]
    rintro rfl
    rw [List.isPrefixOf_iff_prefix.2 h] at hkept
    exact absurd hkept (by decide)
  simp [find?, hq, hnone]

/-- However the work in a directory comes out, nothing is left of the directory or below it, unless it is kept. -/
theorem find?_inWorkdir {α : Type} (t : FileTree) {p q : Place} (h : p <+: q) (hq : q ≠ [])
    (work : FileTree → FileTree × α) : (t.inWorkdir false p work).1.find? q = none :=
  find?_remove h hq (work (t.put p .directory)).1

end FileTree

end CallTrace
