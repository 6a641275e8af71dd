import BlockCanvas.Proofs.Program.QuotedText
import BlockCanvas.Proofs.Text.Parts

/-!
# What lines read

A line looks up only names that stand on it, since everything it evaluates is cut out of it.  So
tables that agree on these names lead it to the same output, the same result, and tables that still
agree: `readsOnly_step`.  An assignment to a name that no later line mentions can therefore be left
out of a program: `execute_without_assignment`.
-/

namespace BlockCanvas

/-- Two tables give the names with a property the same values. -/
def Bindings.AgreeOn (P : Text → Prop) (b b' : Bindings) : Prop :=
  ∀ name, P name → b.get? name = b'.get? name

namespace Bindings

variable {P : Text → Prop} {b b' : Bindings}

theorem AgreeOn.bind (h : AgreeOn P b b') (name : Text) (v : Value) :
    AgreeOn P (b.bind name v) (b'.bind name v) := by
  intro other read
  by_cases same : other = name
  · rw [same, get?_bind_self, get?_bind_self]
  · rw [get?_bind_of_ne b v same, get?_bind_of_ne b' v same, h other read]

/-- A table that binds one more name agrees with the table on all others. -/
theorem agreeOn_bind_self (b : Bindings) (n : Text) (v : Value) :
    AgreeOn (· ≠ n) (b.bind n v) b :=
  fun _ other => get?_bind_of_ne b v other

end Bindings

namespace Action

variable {ε ε' α β : Type} {P : Text → Prop}

/-- From tables that agree on the names with a property the action comes to the same result with the
same output, and to such tables. -/
def ReadsOnly (P : Text → Prop) (x : Action ε α) : Prop :=
  ∀ b b', b.AgreeOn P b' → (x.on b).printed = (x.on b').printed ∧
    (x.on b).result = (x.on b').result ∧ (x.on b).bindings.AgreeOn P (x.on b').bindings

theorem readsOnly_pure (a : α) : ReadsOnly P (pure a : Action ε α) := fun _ _ h => ⟨rfl, rfl, h⟩

theorem readsOnly_fail (e : ε) : ReadsOnly P (fail e : Action ε α) := fun _ _ h => ⟨rfl, rfl, h⟩

theorem readsOnly_print (line : Text) : ReadsOnly P (print line : Action ε Unit) :=
  fun _ _ h => ⟨rfl, rfl, h⟩

theorem readsOnly_compute {f : Bindings → Except ε α}
    (same : ∀ b b', b.AgreeOn P b' → f b = f b') : ReadsOnly P (compute f) :=
  fun b b' h => ⟨rfl, same b b' h, h⟩

theorem readsOnly_store (name : Text) (v : Value) :
    ReadsOnly P (store name v : Action ε Unit) :=
  fun _ _ h => ⟨rfl, rfl, h.bind name v⟩

theorem ReadsOnly.bind {x : Action ε α} {f : α → Action ε β} (hx : ReadsOnly P x)
    (hf : ∀ a, ReadsOnly P (f a)) : ReadsOnly P (x >>= f) := by
  intro b b' h
  obtain ⟨printed, result, kept⟩ := hx b b' h
  cases first : (x.on b).result with
  | error e =>
    rw [on_bind_of_error first, on_bind_of_error (result ▸ first)]
    exact ⟨printed, rfl, kept⟩
  | ok a =>
    rw [on_bind_of_ok first, on_bind_of_ok (result ▸ first)]
    obtain ⟨later, result, kept⟩ := hf a _ _ kept
    exact ⟨by rw [printed, later], result, kept⟩

theorem ReadsOnly.mapError {x : Action ε α} (hx : ReadsOnly P x) (f : ε → ε') :
    ReadsOnly P (x.mapError f) := by
  intro b b' h
  obtain ⟨printed, result, kept⟩ := hx b b' h
  exact ⟨printed, congrArg (Except.mapError f) result, kept⟩

theorem readsOnly_forEach {f : α → Action ε Unit} {as : List α}
    (h : ∀ a ∈ as, ReadsOnly P (f a)) : ReadsOnly P (forEach f as) := by
  induction as with
  | nil => exact readsOnly_pure ()
  | cons a as ih =>
    rw [forEach_cons]
    apply (h a List.mem_cons_self).bind
    intro _
    exact ih fun a' ha => h a' (List.mem_cons_of_mem a ha)

theorem readsOnly_mapM {f : α → Action ε β} {as : List α} (h : ∀ a ∈ as, ReadsOnly P (f a)) :
    ReadsOnly P (as.mapM f) := by
  induction as with
  | nil =>
    rw [List.mapM_nil]
    exact readsOnly_pure _
  | cons a as ih =>
    rw [List.mapM_cons]
    apply (h a List.mem_cons_self).bind
    intro _
    exact (ih fun a' ha => h a' (List.mem_cons_of_mem a ha)).bind fun _ => readsOnly_pure _

end Action

/-! ### Expressions -/

namespace Expression

variable {P : Text → Prop} {e : Text} {b b' : Bindings}

theorem atom?_congr (agree : b.AgreeOn P b') (read : e.Allows P) : atom? b e = atom? b' e := by
  simp only [atom?, agree e (read e List.infix_rfl)]

/-- An expression is evaluated by cutting it up until an operator is left over or a part is a name,
so that each name it reads stands in it. -/
theorem evaluateIn_congr (agree : b.AgreeOn P b') (room : Nat) (read : e.Allows P) :
    evaluateIn b room e = evaluateIn b' room e := by
  induction room generalizing e with
  | zero => rw [evaluateIn, evaluateIn, atom?_congr agree read]
  | succ room ih =>
    rw [evaluateIn, evaluateIn, atom?_congr agree read]
    split
    · rfl
    · split
      · rfl
      · next op left right cut =>
        obtain ⟨inLeft, inRight⟩ := infix_of_cut? cut
        dsimp only
        rw [ih (read.part inLeft), ih (read.part inRight)]

theorem evaluate_congr (agree : b.AgreeOn P b') (read : e.Allows P) :
    evaluate b e = evaluate b' e :=
  evaluateIn_congr agree _ read

theorem holds_congr (agree : b.AgreeOn P b') (read : e.Allows P) : holds b e = holds b' e := by
  rw [holds, holds]
  split
  · next cut =>
    obtain ⟨inLeft, inRight⟩ := infix_of_cutCondition? cut
    rw [evaluate_congr agree (read.part inLeft), evaluate_congr agree (read.part inRight)]
  · rw [evaluate_congr agree read]

end Expression

/-! ### Lines -/

namespace Statement

open BlockCanvas.Action

variable {config : Config} {P : Text → Prop} {line : Text}

theorem readsOnly_eval {e : Text} (read : e.Allows P) : ReadsOnly P (eval e) :=
  readsOnly_compute fun _ _ agree => Expression.evaluate_congr agree read

/-- Printing a line ends a statement. -/
theorem readsOnly_print_taken (shown : Text) :
    ReadsOnly P (do Action.print shown; return Verdict.taken : Action Fault Verdict) :=
  (readsOnly_print shown).bind fun _ => readsOnly_pure _

theorem readsOnly_listOf {name : Text} (read : P name) : ReadsOnly P (listOf name) := by
  have fresh : ReadsOnly P (do store name (.list []); return .list [] : Action Fault Value) :=
    (readsOnly_store _ _).bind fun _ => readsOnly_pure _
  apply ReadsOnly.bind (readsOnly_compute fun b b' agree => by rw [agree name read])
  intro v?
  cases v? with
  | none => exact fresh
  | some v =>
    show ReadsOnly P (if v.isTruthy then _ else _)
    split
    · exact readsOnly_pure _
    · exact fresh

section

variable (read : line.Allows P)
include read

theorem readsOnly_assign : ReadsOnly P (assign line) := by
  unfold assign
  split
  · exact readsOnly_pure _
  · next name e cut =>
    have inside : Text.trim e <:+: line := (Text.trim_infix e).trans (Text.infix_of_splitOnce cut).2
    apply (readsOnly_eval (read.part inside)).bind
    intro v
    exact (readsOnly_store _ v).bind fun _ => readsOnly_pure _

theorem readsOnly_printStatement : ReadsOnly P (Statement.print line) := by
  unfold Statement.print
  split
  · exact readsOnly_pure _
  · next e between =>
    apply (readsOnly_eval (read.part (Text.infix_of_between? between))).bind
    intro v
    exact readsOnly_print_taken _

theorem readsOnly_ifHeader : ReadsOnly P (ifHeader line) := by
  unfold ifHeader
  split
  · exact readsOnly_pure _
  · next condition between =>
    have inside : condition.Allows P := read.part (Text.infix_of_between? between)
    apply (readsOnly_compute fun _ _ agree => Expression.holds_congr agree inside).bind
    intro truth
    cases truth with
    | false => exact readsOnly_pure _
    | true => exact readsOnly_print_taken _

theorem readsOnly_append : ReadsOnly P (append config line) := by
  unfold append
  split
  · exact readsOnly_pure _
  · next name e shape =>
    obtain ⟨inName, inItem⟩ := Shape.infix_of_append? shape
    apply (readsOnly_listOf (read name inName)).bind
    intro list
    apply (readsOnly_eval (read.part inItem)).bind
    intro item
    apply (readsOnly_compute fun _ _ _ => rfl).bind
    intro grown
    apply (readsOnly_store _ grown).bind
    intro _
    exact readsOnly_print_taken _

theorem readsOnly_listLiteral : ReadsOnly P (listLiteral line) := by
  unfold listLiteral
  split
  · exact readsOnly_pure _
  · next inner between =>
    have items : ∀ e ∈ Text.splitChar ',' inner, ReadsOnly P (eval (Text.trim e)) := by
      intro e member
      have inside : Text.trim e <:+: inner :=
        (Text.trim_infix e).trans (Text.infix_of_mem_splitChar member)
      exact readsOnly_eval (read.part (inside.trans (Text.infix_of_between? between)))
    exact (readsOnly_mapM items).bind fun _ => readsOnly_print_taken _

theorem readsOnly_handle (rule : Rule) : ReadsOnly P (handle config line rule) := by
  cases rule with
  | assignment => exact readsOnly_assign read
  | print => exact readsOnly_printStatement read
  | input =>
    show ReadsOnly P (input config line)
    unfold input
    split
    · exact readsOnly_pure _
    · exact (readsOnly_print _).bind fun _ => readsOnly_print_taken _
  | forRange =>
    show ReadsOnly P (forRange config line)
    unfold forRange
    split
    · exact readsOnly_pure _
    · dsimp only
      split
      · exact readsOnly_fail _
      · refine ReadsOnly.bind (readsOnly_forEach ?_) fun _ => readsOnly_pure _
        intro i _
        exact (readsOnly_store _ _).bind fun _ => readsOnly_print _
  | ifHeader => exact readsOnly_ifHeader read
  | defHeader =>
    show ReadsOnly P (defHeader line)
    unfold defHeader
    split
    · exact readsOnly_pure _
    · exact readsOnly_print_taken _
  | append => exact readsOnly_append read
  | listLiteral => exact readsOnly_listLiteral read
  | echo => exact readsOnly_print_taken _

theorem readsOnly_stepWith (rules : List Rule) : ReadsOnly P (stepWith config line rules) := by
  induction rules with
  | nil => exact readsOnly_pure _
  | cons rule rules ih =>
    rw [stepWith]
    split
    · apply ((readsOnly_handle read rule).mapError _).bind
      intro verdict
      cases verdict with
      | taken => exact readsOnly_pure _
      | passed => exact ih
    · exact ih

theorem readsOnly_step : ReadsOnly P (step config line) := readsOnly_stepWith read Rule.all

end

/-- An assignment whose expression has a value binds the name, and prints nothing. -/
theorem on_step_assignment (config : Config) {b : Bindings} {name e : Text} {v : Value}
    (accepted : Rule.assignment.accepts line = true)
    (cut : Text.splitOnce " = ".toList line = some (name, e))
    (value : Expression.evaluate b (Text.trim e) = .ok v) :
    (step config line).on b = ⟨b.bind (Text.trim name) v, [], .ok ()⟩ := by
  rw [step, Rule.all, stepWith_of_taken accepted (on_assign cut value)]

end Statement

/-! ### Programs -/

namespace Program

open BlockCanvas.Action Statement

theorem readsOnly_perform (config : Config) {P : Text → Prop} {lines : List Text}
    (read : ∀ line ∈ lines, line.Allows P) : ReadsOnly P (perform config lines) :=
  readsOnly_forEach fun line h => readsOnly_step (read line h)

/-- A program may leave out an assignment that has a value and whose name no later line mentions. -/
theorem execute_without_assignment (config : Config) (source shorter : Text)
    (before after : List Text) (line name e : Text) (v : Value)
    (whole : programLines source = before ++ line :: after)
    (rest : programLines shorter = before ++ after)
    (assignment : Rule.assignment.accepts line = true)
    (cut : Text.splitOnce " = ".toList line = some (name, e))
    (done : ((perform config before).on .empty).result = .ok ())
    (value : Expression.evaluate ((perform config before).on .empty).bindings (Text.trim e) = .ok v)
    (unmentioned : ∀ l ∈ after, ¬ Text.trim name <:+: l) :
    execute config shorter = execute config source := by
  have assigned := on_step_assignment config assignment cut value
  have others : ∀ l ∈ after, l.Allows (· ≠ Text.trim name) := by
    rintro l member _ found rfl
    exact unmentioned l member found
  obtain ⟨printed, result, -⟩ := readsOnly_perform config others _ _
    (Bindings.agreeOn_bind_self ((perform config before).on .empty).bindings _ v)
  rw [execute, execute, run, run, whole, rest, perform_append, perform_append,
    on_bind_of_ok done, on_bind_of_ok done, perform_cons_of_ok assigned]
  apply report_congr
  · rw [printed, List.nil_append]
  · exact result.symm

/-- The name may hold a space, and the lines after it may mention parts of it. -/
theorem execute_without_assignment_total :
    programLines "x = 2\ntotal x = x * 3 - 1\nprint(x)\ntotal.append(x)".toList =
        ["x = 2".toList] ++ "total x = x * 3 - 1".toList ::
          ["print(x)".toList, "total.append(x)".toList] ∧
      programLines "x = 2\nprint(x)\ntotal.append(x)".toList =
        ["x = 2".toList] ++ ["print(x)".toList, "total.append(x)".toList] ∧
      Rule.assignment.accepts "total x = x * 3 - 1".toList = true ∧
      Text.splitOnce " = ".toList "total x = x * 3 - 1".toList =
        some ("total x".toList, "x * 3 - 1".toList) ∧
      ((perform {} ["x = 2".toList]).on .empty).result = .ok () ∧
      (∃ v, Expression.evaluate ((perform {} ["x = 2".toList]).on .empty).bindings
        (Text.trim "x * 3 - 1".toList) = .ok v) ∧
      (∀ l ∈ ["print(x)".toList, "total.append(x)".toList],
        ¬ Text.trim "total x".toList <:+: l) ∧
      execute {} "x = 2\nprint(x)\ntotal.append(x)".toList =
        execute {} "x = 2\ntotal x = x * 3 - 1\nprint(x)\ntotal.append(x)".toList := by
  have whole : programLines "x = 2\ntotal x = x * 3 - 1\nprint(x)\ntotal.append(x)".toList =
      ["x = 2".toList] ++ "total x = x * 3 - 1".toList ::
        ["print(x)".toList, "total.append(x)".toList] := by decide +kernel
  have rest : programLines "x = 2\nprint(x)\ntotal.append(x)".toList =
      ["x = 2".toList] ++ ["print(x)".toList, "total.append(x)".toList] := by decide +kernel
  have assignment : Rule.assignment.accepts "total x = x * 3 - 1".toList = true := by decide +kernel
  have cut : Text.splitOnce " = ".toList "total x = x * 3 - 1".toList =
      some ("total x".toList, "x * 3 - 1".toList) := by decide +kernel
  have done : ((perform {} ["x = 2".toList]).on .empty).result = .ok () := rfl
  have evaluated : (Expression.evaluate ((perform {} ["x = 2".toList]).on .empty).bindings
      (Text.trim "x * 3 - 1".toList)).toBool = true := by decide +kernel
  have unmentioned : ∀ l ∈ ["print(x)".toList, "total.append(x)".toList],
      ¬ Text.trim "total x".toList <:+: l := by decide +kernel
  cases value : Expression.evaluate ((perform {} ["x = 2".toList]).on .empty).bindings
      (Text.trim "x * 3 - 1".toList) with
  | error fault =>
    rw [value] at evaluated
    cases evaluated
  | ok v =>
    exact ⟨whole, rest, assignment, cut, done, ⟨v, rfl⟩, unmentioned,
      execute_without_assignment {} _ _ _ _ _ _ _ v whole rest assignment cut done value
        unmentioned⟩

end Program
end BlockCanvas
