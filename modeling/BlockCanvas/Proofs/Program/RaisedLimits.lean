import BlockCanvas.Program.Run
import BlockCanvas.Proofs.Program.Action

/-!
# Raised limits

Limits act as faults only: they neither shorten what is printed nor choose another rule.  So a run
under higher limits repeats a run under lower ones up to the place where a limit stopped it.
`Action.ExtendedBy` is this relation of two actions, `extendedBy_step` says it of a line, and
`execute_of_limits_le` of a whole run.
-/

namespace BlockCanvas
namespace Action

variable {ε ε' α β : Type}

/-- `y` does what `x` does, except that it may go on where an error stops `x`. -/
def ExtendedBy (x y : Action ε α) : Prop :=
  ∀ b, x.on b = y.on b ∨
    (∃ e, (x.on b).result = .error e) ∧ (x.on b).printed <+: (y.on b).printed

theorem ExtendedBy.refl (x : Action ε α) : x.ExtendedBy x := fun _ => .inl rfl

theorem extendedBy_fail (e : ε) (y : Action ε α) : (fail e).ExtendedBy y :=
  fun _ => .inr ⟨⟨e, rfl⟩, List.nil_prefix⟩

theorem ExtendedBy.bind {x y : Action ε α} {f g : α → Action ε β} (hx : x.ExtendedBy y)
    (hf : ∀ a, (f a).ExtendedBy (g a)) : (x >>= f).ExtendedBy (y >>= g) := by
  intro b
  rcases hx b with same | ⟨⟨e, stopped⟩, shorter⟩
  · cases h : (y.on b).result with
    | error e =>
      left
      rw [on_bind_of_error h, on_bind_of_error (same ▸ h), same]
    | ok a =>
      rw [on_bind_of_ok h, on_bind_of_ok (same ▸ h), same]
      rcases hf a (y.on b).bindings with same | ⟨stopped, shorter⟩
      · left
        rw [same]
      · right
        exact ⟨stopped, (List.prefix_append_right_inj _).2 shorter⟩
  · right
    rw [on_bind_of_error stopped]
    refine ⟨⟨e, rfl⟩, shorter.trans ?_⟩
    cases h : (y.on b).result with
    | error e => exact (on_bind_of_error h).symm ▸ List.prefix_rfl
    | ok a =>
      rw [on_bind_of_ok h]
      exact List.prefix_append _ _

theorem ExtendedBy.mapError {x y : Action ε α} (h : x.ExtendedBy y) (f : ε → ε') :
    (x.mapError f).ExtendedBy (y.mapError f) := by
  intro b
  rcases h b with same | ⟨⟨e, stopped⟩, shorter⟩
  · left
    rw [on_mapError, on_mapError, same]
  · right
    refine ⟨⟨f e, ?_⟩, shorter⟩
    rw [on_mapError, stopped]
    rfl

theorem extendedBy_forEach {f g : α → Action ε Unit} (h : ∀ a, (f a).ExtendedBy (g a))
    (as : List α) : (forEach f as).ExtendedBy (forEach g as) := by
  induction as with
  | nil => exact .refl _
  | cons a as ih =>
    rw [forEach_cons, forEach_cons]
    exact (h a).bind fun _ => ih

end Action

/-- The limits of `c` are no higher than those of `d`, and prompts get the same answer. -/
structure Config.Below (c d : Config) : Prop where
  iterations : c.maxLoopIterations ≤ d.maxLoopIterations
  items : c.maxListItems ≤ d.maxListItems
  input : c.simulatedInput = d.simulatedInput

namespace Statement

open BlockCanvas.Action

variable {c d : Config}

/-! ### Lines -/

/-- A higher limit allows the same list, and may allow one where the lower limit did not. -/
theorem appended_eq_or_error (h : c.maxListItems ≤ d.maxListItems) (name : Text)
    (list item : Value) :
    appended c name list item = appended d name list item ∨
      ∃ fault, appended c name list item = .error fault := by
  cases list with
  | list items =>
    simp only [appended]
    split
    case isTrue => exact .inr ⟨_, rfl⟩
    case isFalse fits =>
      left
      rw [if_neg (show ¬ d.maxListItems < _ by omega)]
  | text s => exact .inl rfl
  | number x => exact .inl rfl

theorem extendedBy_appended (h : c.maxListItems ≤ d.maxListItems) (name : Text)
    (list item : Value) :
    (compute fun _ => appended c name list item).ExtendedBy
      (compute fun _ => appended d name list item) := by
  intro b
  rcases appended_eq_or_error h name list item with same | ⟨fault, stopped⟩
  · left
    rw [same]
  · right
    exact ⟨⟨fault, stopped⟩, List.nil_prefix⟩

theorem extendedBy_append (h : c.maxListItems ≤ d.maxListItems) (line : Text) :
    (append c line).ExtendedBy (append d line) := by
  unfold append
  split
  · exact .refl _
  · apply (ExtendedBy.refl (listOf _)).bind
    intro list
    apply (ExtendedBy.refl (eval _)).bind
    intro item
    exact (extendedBy_appended h _ list item).bind fun _ => .refl _

theorem extendedBy_forRange (h : c.maxLoopIterations ≤ d.maxLoopIterations) (line : Text) :
    (forRange c line).ExtendedBy (forRange d line) := by
  unfold forRange
  split
  · exact .refl _
  next r _ =>
    dsimp only
    split
    case isTrue => exact extendedBy_fail _ _
    case isFalse fits =>
      rw [if_neg (show ¬ d.maxLoopIterations < r.stop - r.start by omega)]
      exact .refl _

theorem extendedBy_handle (h : c.Below d) (line : Text) (rule : Rule) :
    (handle c line rule).ExtendedBy (handle d line rule) := by
  cases rule with
  | forRange => exact extendedBy_forRange h.iterations line
  | append => exact extendedBy_append h.items line
  | input =>
    show (input c line).ExtendedBy (input d line)
    unfold input
    rw [h.input]
    exact .refl _
  | assignment | print | ifHeader | defHeader | listLiteral | echo => exact .refl _

/-- Both runs try the same rules, since a limit never makes a rule pass a line on. -/
theorem extendedBy_stepWith (h : c.Below d) (line : Text) (rules : List Rule) :
    (stepWith c line rules).ExtendedBy (stepWith d line rules) := by
  induction rules with
  | nil => exact .refl _
  | cons rule rules ih =>
    rw [stepWith, stepWith]
    split
    · apply ((extendedBy_handle h line rule).mapError _).bind
      intro verdict
      cases verdict with
      | taken => exact .refl _
      | passed => exact ih
    · exact ih

theorem extendedBy_step (h : c.Below d) (line : Text) : (step c line).ExtendedBy (step d line) :=
  extendedBy_stepWith h line Rule.all

end Statement

namespace Program

open BlockCanvas.Action

variable {c d : Config}

/-! ### Runs -/

theorem extendedBy_perform (h : c.Below d) (lines : List Text) :
    (perform c lines).ExtendedBy (perform d lines) :=
  extendedBy_forEach (Statement.extendedBy_step h) lines

/-- A run that no fault ends is the same under higher limits, and one that a fault ends has printed
the first lines of what the run under higher limits prints. -/
theorem execute_of_limits_le (c d : Config) (input : c.simulatedInput = d.simulatedInput)
    (iterations : c.maxLoopIterations ≤ d.maxLoopIterations)
    (items : c.maxListItems ≤ d.maxListItems) (source : Text) :
    ((execute c source).error = none → execute d source = execute c source) ∧
      ((execute c source).error ≠ none →
        (execute c source).output <+: (execute d source).output) := by
  have limits : c.Below d := ⟨iterations, items, input⟩
  rcases extendedBy_perform limits (programLines source) .empty with same | ⟨⟨e, stopped⟩, shorter⟩
  · have reports : execute c source = execute d source := congrArg Effect.report same
    rw [reports]
    exact ⟨fun _ => rfl, fun _ => List.prefix_rfl⟩
  · refine ⟨fun fine => ?_, fun _ => shorter⟩
    simp [execute, run, Effect.report, Effect.failure?, stopped] at fine

/-- Under a limit of two turns the first of two loops is run as it is without, and the second one
faults. -/
theorem execute_of_limits_le_two_loops :
    (execute { maxLoopIterations := 2 } "for i in range(2):".toList).error = none ∧
      execute {} "for i in range(2):".toList =
        execute { maxLoopIterations := 2 } "for i in range(2):".toList ∧
      (execute { maxLoopIterations := 2 } "for i in range(2):\nfor j in range(3):".toList).error ≠
        none ∧
      (execute { maxLoopIterations := 2 }
          "for i in range(2):\nfor j in range(3):".toList).output <+:
        (execute {} "for i in range(2):\nfor j in range(3):".toList).output := by
  have fine : (execute { maxLoopIterations := 2 } "for i in range(2):".toList).error = none := by
    decide +kernel
  have faulted : (execute { maxLoopIterations := 2 }
      "for i in range(2):\nfor j in range(3):".toList).error ≠ none := by
    decide +kernel
  have raised := execute_of_limits_le { maxLoopIterations := 2 } {} rfl (by decide) (by decide)
  exact ⟨fine, (raised _).1 fine, faulted, (raised _).2 faulted⟩

end Program
end BlockCanvas
