import BlockCanvas.Proofs.Program.Statement
import BlockCanvas.Proofs.Text.Line

/-!
# Runs of joined programs

The run of two programs, one after the other, is the run of the first and then the run of the second
from the bindings the first one left.  A fault ends a run at the first line that faults, with the
output of the lines before it.

Main statement: `execute_append_lineFeed_and_fault`.
-/

namespace BlockCanvas
namespace Program

open BlockCanvas.Action Statement

variable {config : Config}

theorem perform_append (lines more : List Text) :
    perform config (lines ++ more) = perform config lines >>= fun _ => perform config more :=
  forEach_append _ lines more

theorem perform_cons_of_ok {line : Text} {lines : List Text} {b b' : Bindings} {shown : List Text}
    (h : (step config line).on b = ⟨b', shown, .ok ()⟩) :
    (perform config (line :: lines)).on b = ⟨((perform config lines).on b').bindings,
      shown ++ ((perform config lines).on b').printed, ((perform config lines).on b').result⟩ := by
  rw [perform, forEach_cons, on_bind_of_on_ok h]
  rfl

theorem perform_cons_of_error {line : Text} {lines : List Text} {b b' : Bindings}
    {shown : List Text} {failure : Failure}
    (h : (step config line).on b = ⟨b', shown, .error failure⟩) :
    (perform config (line :: lines)).on b = ⟨b', shown, .error failure⟩ := by
  rw [perform, forEach_cons, on_bind_of_on_error h]

theorem perform_singleton (config : Config) (line : Text) :
    perform config [line] = step config line := by
  rw [perform, forEach_cons, forEach_nil]
  exact bind_pure _

/-- One more line of a program that no fault ended before it. -/
theorem perform_take_succ {lines : List Text} {line : Text} {count : Nat} {b b' : Bindings}
    {shown : List Text} (next : lines[count]? = some line)
    (done : ((perform config (lines.take count)).on b).result = .ok ())
    (h : (step config line).on ((perform config (lines.take count)).on b).bindings =
      ⟨b', shown, .ok ()⟩) :
    (perform config (lines.take (count + 1))).on b =
      ⟨b', ((perform config (lines.take count)).on b).printed ++ shown, .ok ()⟩ := by
  rw [List.take_add_one, next, Option.toList_some, perform_append, on_bind_of_ok done,
    perform_singleton, h]

theorem error_report_congr {x y : Effect Failure Unit} (result : x.result = y.result) :
    x.report.error = y.report.error := by
  rw [Effect.report, Effect.report, Effect.failure?, Effect.failure?, result]

theorem report_congr {x y : Effect Failure Unit} (printed : x.printed = y.printed)
    (result : x.result = y.result) : x.report = y.report := by
  rw [Effect.report, Effect.report, Effect.failure?, Effect.failure?, printed, result]

/-! ### Joined programs -/

theorem run_append_of_error {s t : Text} {failure : Failure}
    (h : (run config s).result = .error failure) :
    run config (s ++ '\n' :: t) = run config s := by
  show (perform config _).on .empty = _
  rw [programLines_append, perform_append, on_bind_of_error h, ← h]
  rfl

theorem run_append_of_ok {s t : Text} (h : (run config s).result = .ok ()) :
    run config (s ++ '\n' :: t) =
      ⟨((perform config (programLines t)).on (run config s).bindings).bindings,
        (run config s).printed ++
          ((perform config (programLines t)).on (run config s).bindings).printed,
        ((perform config (programLines t)).on (run config s).bindings).result⟩ := by
  show (perform config _).on .empty = _
  rw [programLines_append, perform_append, on_bind_of_ok h]
  rfl

theorem result_of_error_eq_none {source : Text} (h : (execute config source).error = none) :
    (run config source).result = .ok () := by
  cases e : (run config source).result with
  | ok _ => rfl
  | error failure =>
    rw [execute, Effect.report, Effect.failure?, e] at h
    cases h

theorem result_of_error_eq_some {source e : Text} (h : (execute config source).error = some e) :
    ∃ failure, (run config source).result = .error failure ∧ e = failure.message := by
  cases r : (run config source).result with
  | ok _ =>
    rw [execute, Effect.report, Effect.failure?, r] at h
    cases h
  | error failure =>
    rw [execute, Effect.report, Effect.failure?, r] at h
    cases h
    exact ⟨failure, rfl, rfl⟩

/-! ### The line that faults -/

/-- A run that is ended by a fault went through all lines before the one that faults, and shows what
these lines printed. -/
theorem run_error {source : Text} {failure : Failure}
    (h : (run config source).result = .error failure) :
    ∃ before after, programLines source = before ++ failure.line :: after ∧
      ((perform config before).on .empty).result = .ok () ∧
      FaultsUnder config ((perform config before).on .empty).bindings failure.line Rule.all
        failure.rule failure.fault ∧
      (run config source).printed = ((perform config before).on .empty).printed := by
  obtain ⟨before, line, after, lines, done, all, last⟩ := forEach_error h
  obtain ⟨rfl, faults, silent⟩ := step_error last
  refine ⟨before, after, lines, done, faults, ?_⟩
  have printed := congrArg Effect.printed all
  rw [silent, List.append_nil] at printed
  exact printed

/-- A run that faults shows the same whatever program follows; otherwise what follows is run from
the bindings it left, and its output and error come behind.  A fault is one of the first program
line that faults, which prints nothing, and the error names the rule, the line and the cause. -/
theorem execute_append_lineFeed_and_fault (config : Config) :
    (∀ s t : Text,
      ((execute config s).error ≠ none →
        execute config (s ++ '\n' :: t) = execute config s) ∧
      ((execute config s).error = none →
        execute config (s ++ '\n' :: t) =
          ⟨(execute config s).output ++
              ((perform config (programLines t)).on (run config s).bindings).printed,
            ((perform config (programLines t)).on (run config s).bindings).report.error⟩)) ∧
    ∀ source e : Text, (execute config source).error = some e →
      ∃ before line after rule fault, programLines source = before ++ line :: after ∧
        ((perform config before).on .empty).result = .ok () ∧
        FaultsUnder config ((perform config before).on .empty).bindings line Rule.all rule fault ∧
        (execute config source).output = ((perform config before).on .empty).printed ∧
        e = "ERROR: ".toList ++ rule.name ++ " `".toList ++ line ++ "`: ".toList ++
          fault.message := by
  refine ⟨fun s t => ⟨?_, ?_⟩, ?_⟩
  · intro faulted
    rcases Option.ne_none_iff_exists'.1 faulted with ⟨e, he⟩
    rcases result_of_error_eq_some he with ⟨failure, hf, -⟩
    rw [execute, run_append_of_error hf, execute]
  · intro fine
    rw [execute, run_append_of_ok (result_of_error_eq_none fine)]
    rfl
  · intro source e h
    rcases result_of_error_eq_some h with ⟨failure, hf, rfl⟩
    rcases run_error hf with ⟨before, after, lines, done, faults, printed⟩
    exact ⟨before, failure.line, after, failure.rule, failure.fault, lines, done, faults, printed,
      rfl⟩

theorem execute_append_lineFeed_and_fault_division :
    (execute {} "x = 2".toList).error = none ∧
      execute {} ("x = 2".toList ++ '\n' :: "print(x)".toList) =
        ⟨(execute {} "x = 2".toList).output ++
            ((perform {} (programLines "print(x)".toList)).on
              (run {} "x = 2".toList).bindings).printed,
          ((perform {} (programLines "print(x)".toList)).on
            (run {} "x = 2".toList).bindings).report.error⟩ ∧
      (execute {} "print(1)\nx = 1 / 0".toList).error =
        some "ERROR: assignment `x = 1 / 0`: division by zero: 1 / 0".toList ∧
      execute {} ("print(1)\nx = 1 / 0".toList ++ '\n' :: "print(2)".toList) =
        execute {} "print(1)\nx = 1 / 0".toList ∧
      ∃ before line after rule fault,
        programLines "print(1)\nx = 1 / 0".toList = before ++ line :: after ∧
          ((perform {} before).on .empty).result = .ok () ∧
          FaultsUnder {} ((perform {} before).on .empty).bindings line Rule.all rule fault ∧
          (execute {} "print(1)\nx = 1 / 0".toList).output =
            ((perform {} before).on .empty).printed ∧
          "ERROR: assignment `x = 1 / 0`: division by zero: 1 / 0".toList =
            "ERROR: ".toList ++ rule.name ++ " `".toList ++ line ++ "`: ".toList ++
              fault.message := by
  have fine : (execute {} "x = 2".toList).error = none := by decide +kernel
  have faulted : (execute {} "print(1)\nx = 1 / 0".toList).error =
      some "ERROR: assignment `x = 1 / 0`: division by zero: 1 / 0".toList := by decide +kernel
  have parts := execute_append_lineFeed_and_fault {}
  refine ⟨fine, (parts.1 _ _).2 fine, faulted, (parts.1 _ _).1 ?_, parts.2 _ _ faulted⟩
  rw [faulted]
  exact Option.some_ne_none _

end Program
end BlockCanvas
