import BlockCanvas.Canvas.Step
import BlockCanvas.Proofs.Program.Run
import BlockCanvas.Proofs.Text.Parts

/-!
# Runs in a session

A session has one simulator and one console for all its runs.  Steps keep the configuration of the
simulator and leave no run under way (`Ready`), and a run starts without the bindings of the run
before it.  So what a run shows depends on the canvas and the configuration alone, whatever was done
before: `perform_run_after`.
-/

namespace BlockCanvas

theorem LineKind.classify_message (failure : Failure) : classify failure.message = .error := by
  have start : errorMark <+: failure.message := by
    simp only [Failure.message, List.append_assoc, List.prefix_append]
  rw [classify, if_pos (List.isPrefixOf_iff_prefix.2 ((Text.trimEnd_isPrefix _).trans start))]

namespace Session

/-- The header of a run is styled as an error if the run faulted, and only then. -/
theorem classify_header (config : Config) (source : Text) :
    LineKind.classify ((Program.execute config source).error.getD successMessage) = .error ↔
      (Program.execute config source).error ≠ none := by
  cases e : (Program.execute config source).error with
  | none =>
    have success : LineKind.classify successMessage = .output := by decide +kernel
    rw [Option.getD_none, success]
    exact iff_of_false nofun (fun faulted => faulted rfl)
  | some text =>
    obtain ⟨failure, -, rfl⟩ := Program.result_of_error_eq_some e
    exact iff_of_true (LineKind.classify_message failure) nofun

/-! ### Steps -/

variable {config : Config} {s : Session}

/-- What a step other than a run and the clearing of the console does: it fails and changes nothing,
or it succeeds and changes the workspace at most. -/
def Edits (s : Session) (after : Except StepError Outcome × Session) : Prop :=
  (∃ e, after = (.error e, s)) ∨ ∃ outcome w, after = (.ok outcome, s.withWorkspace w)

theorem edits_edited (s : Session) (e : Except EditError Workspace) : s.Edits (s.edited e) := by
  cases e with
  | ok w => exact .inr ⟨_, w, rfl⟩
  | error e => exact .inl ⟨_, rfl⟩

theorem edits_addOfType (s : Session) (type id : Text) (x y : Binary64) :
    s.Edits (s.addOfType type id x y) := by
  unfold addOfType
  split
  · exact .inr ⟨_, _, rfl⟩
  · exact .inl ⟨_, rfl⟩

theorem edits_perform (s : Session) {step : Step} (other : step ≠ .run) (keeps : step ≠ .clear) :
    s.Edits (s.perform step) := by
  cases step with
  | add type id x y => exact edits_addOfType s type id x y
  | drop type id pointerX pointerY originX originY => exact edits_addOfType s type id _ _
  | place block => exact .inr ⟨_, _, rfl⟩
  | move id x y => exact edits_edited s _
  | update id name value => exact edits_edited s _
  | select id => exact .inr ⟨_, _, rfl⟩
  | delete id =>
    simp only [perform]
    split
    · exact .inr ⟨_, _, rfl⟩
    · exact .inl ⟨_, rfl⟩
  | load contents =>
    simp only [perform]
    split
    · exact .inr ⟨_, _, rfl⟩
    · exact .inl ⟨_, rfl⟩
  | save => exact .inr ⟨_, s.workspace, rfl⟩
  | run => exact absurd rfl other
  | clear => exact absurd rfl keeps

theorem Edits.eq_withWorkspace {after : Except StepError Outcome × Session} (h : s.Edits after) :
    ∃ w, after.2 = s.withWorkspace w := by
  obtain ⟨e, rfl⟩ | ⟨outcome, w, rfl⟩ := h
  · exact ⟨s.workspace, rfl⟩
  · exact ⟨w, rfl⟩

/-- A run in a session in which none is under way. -/
theorem perform_run (idle : s.running = false) : ∃ t : Session,
    s.perform .run = (.ok (.shown t.console), t) ∧ t.workspace = s.workspace ∧ t.running = false ∧
      t.simulator.config = s.simulator.config ∧
      t.console = if s.workspace.isEmpty then [noCodeMessage]
        else header (Program.execute s.simulator.config s.preview) := by
  refine ⟨{ runProgram { s with running := true } with running := false }, ?_, ?_, rfl, ?_, ?_⟩
  · simp only [perform, run_eq_some idle]
  · exact workspace_runProgram { s with running := true }
  · exact config_runProgram { s with running := true }
  · exact console_runProgram { s with running := true }

/-- A step that fails changes nothing. -/
theorem perform_of_error {step : Step} {e : StepError} (failed : (s.perform step).1 = .error e) :
    (s.perform step).2 = s := by
  by_cases other : step = .run
  · subst other
    cases busy : s.run with
    | none => simp only [perform, busy]
    | some t => simp only [perform, busy, reduceCtorEq] at failed
  by_cases keeps : step = .clear
  · subst keeps
    cases failed
  · obtain ⟨e', performed⟩ | ⟨outcome, w, performed⟩ := edits_perform s other keeps
    · rw [performed]
    · rw [performed] at failed
      cases failed

/-! ### Sequences of steps -/

/-- The session runs programs under `config`, and no run is under way. -/
structure Ready (config : Config) (s : Session) : Prop where
  config : s.simulator.config = config
  idle : s.running = false

theorem ready_ofWorkspace (w : Workspace) (config : Config) : Ready config (ofWorkspace w config) :=
  ⟨rfl, rfl⟩

theorem Ready.perform (h : Ready config s) (step : Step) : Ready config (s.perform step).2 := by
  by_cases other : step = .run
  · obtain ⟨t, performed, -, idle, kept, -⟩ := perform_run h.idle
    rw [other, performed]
    exact ⟨kept.trans h.config, idle⟩
  by_cases keeps : step = .clear
  · rw [keeps]
    exact ⟨h.config, h.idle⟩
  · obtain ⟨w, performed⟩ := (edits_perform s other keeps).eq_withWorkspace
    rw [performed]
    exact ⟨h.config, h.idle⟩

theorem Ready.after (h : Ready config s) (steps : List Step) : Ready config (s.after steps) := by
  induction steps generalizing s with
  | nil => exact h
  | cons step steps ih => exact ih (h.perform step)

/-! ### Runs -/

/-- Whatever was done in a session, a run leaves the workspace as it is and shows what its program
does on a new simulator: a header, which is styled as an error if the run faulted and only then, and
the output.  Without blocks it shows one line that says so.  No other step than a run and the
clearing of the console changes what is shown. -/
theorem perform_run_after (w : Workspace) (config : Config) (steps : List Step) :
    let s := (ofWorkspace w config).after steps
    let r := ((Simulator.fresh config).execute s.preview).1
    let head := r.error.getD successMessage
    let t := (s.perform .run).2
    (s.perform .run).1 = .ok (.shown t.console) ∧ t.workspace = s.workspace ∧ t.running = false ∧
      (s.workspace.blocks = [] → t.console = [noCodeMessage]) ∧
      (s.workspace.blocks ≠ [] → t.console = head :: r.output ∧
        (LineKind.classify head = .error ↔ r.error ≠ none)) ∧
      ∀ step, step ≠ .run → step ≠ .clear → (s.perform step).2.console = s.console := by
  intro s r head t
  have ready : Ready config s := (ready_ofWorkspace w config).after steps
  obtain ⟨t', performed, workspace, idle, -, console⟩ := perform_run ready.idle
  have ht : t = t' := by rw [show t = (s.perform .run).2 from rfl, performed]
  have shown : (s.perform .run).1 = .ok (.shown t.console) := by rw [performed, ht]
  refine ⟨shown, ht ▸ workspace, ht ▸ idle, ?_, ?_, ?_⟩
  · intro blocks
    have empty : s.workspace.isEmpty = true := by rw [Workspace.isEmpty, blocks, List.isEmpty_nil]
    rw [ht, console, if_pos empty]
  · intro blocks
    have nonempty : ¬ s.workspace.isEmpty = true := by
      rwa [Workspace.isEmpty, List.isEmpty_iff]
    refine ⟨?_, classify_header config s.preview⟩
    rw [ht, console, if_neg nonempty, ready.config]
    rfl
  · intro step other keeps
    obtain ⟨w', changed⟩ := (edits_perform s other keeps).eq_withWorkspace
    rw [changed]
    rfl

/-- A program that faults after one that did not, among steps that fail. -/
def divisionSteps : List Step :=
  [.run, .add "set_variable".toList ['a'] (.zero false) (.zero false), .run,
    .update ['a'] "value".toList "1 / 0".toList, .delete ['b'], .run, .load none]

theorem perform_run_after_division :
    let s := (ofWorkspace .empty {}).after divisionSteps
    let cleared := (ofWorkspace .empty {}).after (divisionSteps ++ [.delete ['a']])
    s.workspace.blocks ≠ [] ∧
      (s.perform .run).2.console =
        ["ERROR: assignment `x = 1 / 0`: division by zero: 1 / 0".toList] ∧
      (s.perform .run).2.workspace = s.workspace ∧
      Step.delete ['a'] ≠ .run ∧ Step.delete ['a'] ≠ .clear ∧
      (s.perform (.delete ['a'])).2.console = s.console ∧
      cleared.workspace.blocks = [] ∧ (cleared.perform .run).2.console = [noCodeMessage] := by
  intro s cleared
  have blocks : s.workspace.blocks ≠ [] := by decide +kernel
  have noBlocks : cleared.workspace.blocks = [] := by decide +kernel
  have report : ((Simulator.fresh {}).execute s.preview).1 =
      ⟨[], some "ERROR: assignment `x = 1 / 0`: division by zero: 1 / 0".toList⟩ := by
    decide +kernel
  have run := perform_run_after .empty {} divisionSteps
  have runEmpty := perform_run_after .empty {} (divisionSteps ++ [.delete ['a']])
  have shown := (run.2.2.2.2.1 blocks).1
  rw [report] at shown
  exact ⟨blocks, shown, run.2.1, nofun, nofun, run.2.2.2.2.2 _ nofun nofun, noBlocks,
    runEmpty.2.2.2.1 noBlocks⟩

end Session
end BlockCanvas
