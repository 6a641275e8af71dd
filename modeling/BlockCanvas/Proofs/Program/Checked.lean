import BlockCanvas.Program.Run
import BlockCanvas.Proofs.Program.CheckedShapes
import BlockCanvas.Proofs.Program.Handlers

/-!
# Runs with checked slices

Statements and runs once more, with the steps that a run could crash in: the handlers take slices
whose ends are numbers of bytes, an append looks its list up again before it adds the item, and
there may be no rule left to try.  A step is stopped by a fault or by a crash: `Halt`.

Nothing crashes.  Where a rule accepts a line, its checked handler is the handler that
`Statement.handle` describes (`handle_eq`).  So a checked run is a run (`run_eq`).

Main statement: `never_crashes`.
-/

namespace BlockCanvas

open Utf8 (size)

/-- What stops a step. -/
inductive Halt (ε : Type) where
  | fault (e : ε)
  | crash (c : Crash)

def Halt.map {ε ε' : Type} (f : ε → ε') : Halt ε → Halt ε'
  | fault e => fault (f e)
  | crash c => crash c

namespace Checked

variable {ε α : Type}

/-! ### Expressions -/

/-- The value of an expression that needs no operator. -/
def atom? (b : Bindings) (e : Text) : Except Crash (Option Value) := do
  match ← unquote? e with
  | some s => return some (.text s)
  | none =>
    match Binary64.literal? e with
    | some x => return some (.number x)
    | none => return b.get? e

def evaluateIn (b : Bindings) : (room : Nat) → Text → Except (Halt Fault) Value
  | room, e => do
    match ← (atom? b e).mapError .crash with
    | some v => return v
    | none =>
      match Expression.cut? e with
      | none => return .text e
      | some (op, left, right) =>
        match room with
        | 0 => throw (.fault .tooManyOperators)
        | room + 1 =>
          let l ← evaluateIn b room left
          let r ← evaluateIn b room right
          (Expression.operate op l r).mapError .fault

def evaluate (b : Bindings) (e : Text) : Except (Halt Fault) Value :=
  evaluateIn b maxExpressionDepth e

def holds (b : Bindings) (e : Text) : Except (Halt Fault) Bool :=
  match Expression.cutCondition? e with
  | some (c, left, right) => do
    let l ← evaluate b left
    let r ← evaluate b right
    return Expression.compare c l r
  | none => do
    let v ← evaluate b e
    return v.isTruthy

theorem atom?_eq (b : Bindings) (e : Text) : atom? b e = .ok (Expression.atom? b e) := by
  rw [atom?, Expression.atom?, unquote?_eq, ok_bind]
  cases Expression.unquote? e with
  | some s => rfl
  | none => cases Binary64.literal? e <;> rfl

theorem evaluateIn_eq (b : Bindings) (room : Nat) (e : Text) :
    evaluateIn b room e = (Expression.evaluateIn b room e).mapError .fault := by
  induction room generalizing e with
  | zero =>
    rw [evaluateIn, Expression.evaluateIn, atom?_eq]
    cases Expression.atom? b e with
    | some v => rfl
    | none => cases Expression.cut? e <;> rfl
  | succ room ih =>
    rw [evaluateIn, Expression.evaluateIn, atom?_eq]
    cases Expression.atom? b e with
    | some v => rfl
    | none =>
      cases Expression.cut? e with
      | none => rfl
      | some p =>
        show (evaluateIn b room p.2.1 >>= fun l => evaluateIn b room p.2.2 >>= fun r => _) = _
        simp only [ih, mapError_bind]

theorem evaluate_eq (b : Bindings) (e : Text) :
    evaluate b e = (Expression.evaluate b e).mapError .fault :=
  evaluateIn_eq b maxExpressionDepth e

theorem holds_eq (b : Bindings) (e : Text) :
    holds b e = (Expression.holds b e).mapError .fault := by
  rw [holds, Expression.holds]
  cases Expression.cutCondition? e with
  | none =>
    simp only [evaluate_eq, mapError_bind]
    rfl
  | some p =>
    simp only [evaluate_eq, mapError_bind]
    rfl

/-! ### Statements -/

/-- A computation that may crash, as a step. -/
def orCrash (x : Except Crash α) : Action (Halt Fault) α := .compute fun _ => x.mapError .crash

def eval (e : Text) : Action (Halt Fault) Value := .compute fun b => evaluate b e

def assign (line : Text) : Action (Halt Fault) Verdict :=
  match Text.splitOnce " = ".toList line with
  | none => return .passed
  | some (name, e) => do
    let v ← eval (Text.trim e)
    Action.store (Text.trim name) v
    return .taken

def print (line : Text) : Action (Halt Fault) Verdict := do
  let e ← orCrash (slice line (size "print(".toList) (size line - 1))
  let v ← eval e
  Action.print v.display
  return .taken

def input (config : Config) (line : Text) : Action (Halt Fault) Verdict := do
  match ← orCrash (prompt? line) with
  | none => return .passed
  | some prompt =>
    Action.print (Statement.echoMark ++ prompt)
    Action.print config.simulatedInput
    return .taken

def forRange (config : Config) (line : Text) : Action (Halt Fault) Verdict := do
  match ← orCrash (range? line) with
  | none => return .passed
  | some r =>
    let count := r.stop - r.start
    if config.maxLoopIterations < count then
      Action.fail (.fault (.rangeTooLong r.start r.stop count config.maxLoopIterations))
    else
      Action.forEach (fun i => do
        Action.store r.var (.number (.ofNat i))
        Action.print (r.var ++ " = ".toList ++ Text.ofNat i)) (List.range' r.start count)
      return .taken

def ifHeader (line : Text) : Action (Halt Fault) Verdict := do
  let condition ← orCrash (slice line (size "if ".toList) (size line - 1))
  if ← Action.compute fun b => holds b condition then
    Action.print ("Condition \"".toList ++ condition ++ "\" is true".toList)
  return .taken

def defHeader (line : Text) : Action (Halt Fault) Verdict := do
  match ← orCrash (function? line) with
  | none => return .passed
  | some (name, params) =>
    let shown := if params = [] then "none".toList else params
    Action.print ("Function \"".toList ++ name ++ "\" defined with parameters: ".toList ++ shown)
    return .taken

/-- Binds a name that is unbound or bound to a false value to the empty list. -/
def openList (name : Text) : Action (Halt Fault) Unit := do
  let bound ← Action.compute fun b => .ok (b.get? name)
  if bound.all fun v => !v.isTruthy then Action.store name (.list [])

/-- The list is looked up again after the item has been evaluated. -/
def append (config : Config) (line : Text) : Action (Halt Fault) Verdict := do
  match ← orCrash (append? line) with
  | none => return .passed
  | some (name, e) =>
    openList name
    let item ← eval e
    match ← Action.compute fun b => .ok (b.get? name) with
    | none => Action.fail (.crash (.unbound name))
    | some list =>
      let grown ← Action.compute fun _ =>
        (Statement.appended config name list item).mapError .fault
      Action.store name grown
      Action.print ("Added ".toList ++ item.display ++ " to ".toList ++ name)
      return .taken

def listLiteral (line : Text) : Action (Halt Fault) Verdict := do
  let inner ← orCrash (slice line (size ['[']) (size line - 1))
  let items ← (Text.splitChar ',' inner).mapM fun e => eval (Text.trim e)
  Action.print ("List created: [".toList ++
    ", ".toList.intercalate (items.map Value.display) ++ [']'])
  return .taken

def echo (line : Text) : Action (Halt Fault) Verdict := do
  Action.print (Statement.echoMark ++ line)
  return .taken

def handle (config : Config) (line : Text) : Rule → Action (Halt Fault) Verdict
  | .assignment => assign line
  | .print => print line
  | .input => input config line
  | .forRange => forRange config line
  | .ifHeader => ifHeader line
  | .defHeader => defHeader line
  | .append => append config line
  | .listLiteral => listLiteral line
  | .echo => echo line

/-- The rules one after the other; a crash if none of them takes the line. -/
def stepWith (config : Config) (line : Text) : List Rule → Action (Halt Failure) Unit
  | [] => Action.fail (.crash (.noRule line))
  | rule :: rules =>
    if rule.accepts line then do
      match ← (handle config line rule).mapError (Halt.map (Failure.mk line rule)) with
      | .taken => return ()
      | .passed => stepWith config line rules
    else stepWith config line rules

def step (config : Config) (line : Text) : Action (Halt Failure) Unit :=
  stepWith config line Rule.all

def run (config : Config) (source : Text) : Effect (Halt Failure) Unit :=
  (Action.forEach (step config) (Program.programLines source)).on .empty

/-! ### Handlers -/

section

open BlockCanvas.Action

variable {config : Config} {line : Text}

theorem orCrash_ok (a : α) : orCrash (.ok a) = pure a := rfl

theorem eval_eq (e : Text) : eval e = (Statement.eval e).mapError .fault := by
  simp only [eval, Statement.eval, mapError_compute, evaluate_eq]

/-- Where a line starts and ends as a rule asks for, and cannot do so with the same characters, the
slice is what stands between the ends. -/
theorem slice_of_ends {first : Text} {c : Char}
    (ends : (Rule.startsWith first line && Rule.endsWith [c] line) = true)
    (apart : Rule.endsWith [c] first = false) (single : size [c] = 1) :
    ∃ e, Text.between? first [c] line = some e ∧
      slice line (size first) (size line - 1) = .ok e := by
  rcases eq_or_exists_between ends with rfl | ⟨e, rfl⟩
  · rw [apart, Bool.and_false] at ends
    cases ends
  · refine ⟨e, Text.between?_append .., ?_⟩
    rw [← single]
    exact slice_between first e [c]

theorem assign_eq (line : Text) : assign line = (Statement.assign line).mapError .fault := by
  rw [assign, Statement.assign]
  cases Text.splitOnce " = ".toList line with
  | none => rfl
  | some p => simp only [eval_eq, Action.mapError_bind, mapError_store, mapError_pure]

theorem print_eq (accepted : Rule.print.accepts line = true) :
    print line = (Statement.print line).mapError .fault := by
  obtain ⟨e, between, cut⟩ := slice_of_ends accepted (by decide) (by decide)
  rw [print, cut, orCrash_ok, pure_bind, Statement.print, between]
  simp only [eval_eq, Action.mapError_bind, mapError_print, mapError_pure]

theorem input_eq (config : Config) (line : Text) :
    input config line = (Statement.input config line).mapError .fault := by
  rw [input, prompt?_eq, orCrash_ok, pure_bind, Statement.input]
  cases Shape.prompt? line with
  | none => rfl
  | some prompt => simp only [Action.mapError_bind, mapError_print, mapError_pure]

theorem forRange_eq (config : Config) (line : Text) :
    forRange config line = (Statement.forRange config line).mapError .fault := by
  rw [forRange, range?_eq, orCrash_ok, pure_bind, Statement.forRange]
  cases Shape.range? line with
  | none => rfl
  | some r =>
    dsimp only
    split
    · rw [mapError_fail]
    · simp only [Action.mapError_bind, mapError_forEach, mapError_store, mapError_print,
        mapError_pure]

theorem ifHeader_eq (accepted : Rule.ifHeader.accepts line = true) :
    ifHeader line = (Statement.ifHeader line).mapError .fault := by
  obtain ⟨condition, between, cut⟩ := slice_of_ends accepted (by decide) (by decide)
  rw [ifHeader, cut, orCrash_ok, pure_bind, Statement.ifHeader, between]
  simp only [Action.mapError_bind, mapError_compute, holds_eq]
  congr
  funext truth
  cases truth <;> rfl

theorem defHeader_eq (line : Text) :
    defHeader line = (Statement.defHeader line).mapError .fault := by
  rw [defHeader, function?_eq, orCrash_ok, pure_bind, Statement.defHeader]
  cases Shape.function? line with
  | none => rfl
  | some p => simp only [Action.mapError_bind, mapError_print, mapError_pure]

theorem on_openList (name : Text) (b : Bindings) :
    (openList name).on b = ⟨b.opened name, [], .ok ()⟩ := by
  rw [openList, on_bind_of_ok (a := b.get? name) rfl, Bindings.opened]
  cases b.get? name with
  | none => rfl
  | some v =>
    cases truth : v.isTruthy <;> simp [truth]

theorem append_eq (config : Config) (line : Text) :
    append config line = (Statement.append config line).mapError .fault := by
  rw [append, append?_eq, orCrash_ok, pure_bind, Statement.append]
  cases Shape.append? line with
  | none => rfl
  | some p =>
    obtain ⟨name, e⟩ := p
    ext b
    -- both go on from the table in which the name is bound to the list
    obtain ⟨list, bound, found⟩ := Statement.on_listOf b name
    have opened : ((Statement.listOf name).mapError Halt.fault).on b =
        ⟨b.opened name, [], .ok list⟩ := by
      rw [on_mapError, found]
      rfl
    have again : (compute (ε := Halt Fault) fun b => .ok (b.get? name)).on (b.opened name) =
        ⟨b.opened name, [], .ok (some list)⟩ := by
      rw [on_compute, bound]
    simp only [Action.mapError_bind]
    rw [on_bind_of_on_ok (on_openList name b), on_bind_of_on_ok opened]
    simp only [eval_eq]
    have evaluated : ((Statement.eval e).mapError Halt.fault).on (b.opened name) =
        ⟨b.opened name, [], (Expression.evaluate (b.opened name) e).mapError .fault⟩ := rfl
    cases value : Expression.evaluate (b.opened name) e with
    | error fault =>
      rw [value] at evaluated
      rw [on_bind_of_on_error evaluated, on_bind_of_on_error evaluated]
    | ok item =>
      rw [value] at evaluated
      rw [on_bind_of_on_ok evaluated, on_bind_of_on_ok evaluated, on_bind_of_on_ok again]
      rfl

theorem listLiteral_eq (accepted : Rule.listLiteral.accepts line = true) :
    listLiteral line = (Statement.listLiteral line).mapError .fault := by
  obtain ⟨inner, between, cut⟩ := slice_of_ends accepted (by decide) (by decide)
  rw [listLiteral, cut, orCrash_ok, pure_bind, Statement.listLiteral, between]
  simp only [eval_eq, Action.mapError_bind, mapError_mapM, mapError_print, mapError_pure]

theorem handle_eq {rule : Rule} (accepted : rule.accepts line = true) :
    handle config line rule = (Statement.handle config line rule).mapError .fault := by
  cases rule with
  | assignment => exact assign_eq line
  | print => exact print_eq accepted
  | input => exact input_eq config line
  | forRange => exact forRange_eq config line
  | ifHeader => exact ifHeader_eq accepted
  | defHeader => exact defHeader_eq line
  | append => exact append_eq config line
  | listLiteral => exact listLiteral_eq accepted
  | echo => rfl

/-! ### Runs -/

/-- The echo is the last rule, and it takes every line. -/
theorem stepWith_concat_echo (config : Config) (line : Text) (rules : List Rule) :
    stepWith config line (rules ++ [.echo]) =
      (Statement.stepWith config line (rules ++ [.echo])).mapError .fault := by
  induction rules with
  | nil => rfl
  | cons rule rules ih =>
    rw [List.cons_append, stepWith, Statement.stepWith]
    split
    case isFalse => exact ih
    case isTrue accepted =>
      have handled : (handle config line rule).mapError (Halt.map (Failure.mk line rule)) =
          ((Statement.handle config line rule).mapError (Failure.mk line rule)).mapError
            .fault := by
        rw [handle_eq accepted, mapError_mapError, mapError_mapError]
        rfl
      rw [handled, Action.mapError_bind]
      refine congrArg _ (funext fun verdict => ?_)
      cases verdict with
      | taken => rfl
      | passed => exact ih

theorem step_eq (config : Config) (line : Text) :
    step config line = (Statement.step config line).mapError .fault :=
  stepWith_concat_echo config line Rule.all.dropLast

theorem run_eq (config : Config) (source : Text) :
    run config source = ⟨(Program.run config source).bindings, (Program.run config source).printed,
      (Program.run config source).result.mapError .fault⟩ := by
  have steps : step config = fun line => (Statement.step config line).mapError .fault :=
    funext (step_eq config)
  rw [run, steps, ← mapError_forEach]
  rfl

/-! ### No crash -/

/-- What was done came to a result or to a fault. -/
def Crashless (e : Effect (Halt ε) α) : Prop := ∀ c, e.result ≠ .error (.crash c)

theorem crashless_mapError_fault (x : Action ε α) (b : Bindings) :
    Crashless ((x.mapError .fault).on b) := by
  intro c
  rw [on_mapError]
  cases (x.on b).result <;> rintro ⟨⟩

/-- The rule takes the line, which is over then, or it faults on the line, and so does the line. -/
def Finishes (config : Config) (b : Bindings) (line : Text) (rule : Rule) : Prop :=
  (((handle config line rule).on b).result = .ok .taken ∧
    ((step config line).on b).result = .ok ()) ∨
  ∃ fault, ((handle config line rule).on b).result = .error (.fault fault) ∧
    ((step config line).on b).result = .error (.fault ⟨line, rule, fault⟩)

/-- The rule that takes a line finishes it. -/
theorem finishes_of_takenBy {b : Bindings} {rule : Rule}
    (taken : Statement.TakenBy config b line Rule.all rule) : Finishes config b line rule := by
  have whole := Statement.stepWith_of_takenBy taken
  obtain ⟨_, _, -, -, last⟩ := taken
  obtain ⟨accepted, result⟩ := Classical.not_imp.1 last
  rw [Finishes, handle_eq accepted, step_eq, on_mapError, on_mapError, Statement.step, whole]
  cases h : ((Statement.handle config line rule).on b).result with
  | error fault => exact .inr ⟨fault, rfl, rfl⟩
  | ok verdict =>
    cases verdict with
    | taken => exact .inl ⟨rfl, rfl⟩
    | passed => exact absurd h result

/-- No text crashes a run.  A slice would crash exactly if its bounds were out of range, in the
wrong order or inside a character, and where a rule accepts a line its handler comes to no crash.
Each line is taken by one rule and by no other, and this one finishes it.  So a run goes as it does
without the checks. -/
theorem never_crashes (config : Config) :
    (∀ s first last, slice s first last = .error (.slice s first last) ↔
      ¬ Text.Bounds s first last) ∧
    (∀ line rule, rule.accepts line = true →
      handle config line rule = (Statement.handle config line rule).mapError .fault ∧
      ∀ b, Crashless ((handle config line rule).on b)) ∧
    (∀ b line, ∃ rule, (∀ r, Statement.TakenBy config b line Rule.all r ↔ r = rule) ∧
      Finishes config b line rule) ∧
    ∀ source, Crashless (run config source) ∧
      run config source = ⟨(Program.run config source).bindings,
        (Program.run config source).printed,
        (Program.run config source).result.mapError .fault⟩ := by
  refine ⟨fun s first last => slice_eq_crash_iff, fun line rule accepted => ?_, fun b line => ?_,
    fun source => ?_⟩
  · rw [handle_eq accepted]
    exact ⟨rfl, crashless_mapError_fault _⟩
  · obtain ⟨rule, taken⟩ := Statement.exists_takenBy config b line
    refine ⟨rule, fun r => ⟨taken.unique, ?_⟩, finishes_of_takenBy taken⟩
    rintro rfl
    exact taken
  · rw [run_eq]
    exact ⟨crashless_mapError_fault (Program.perform config (Program.programLines source)) .empty,
      rfl⟩

/-- A quote that is its own end, and ends of lines behind characters of two bytes. -/
theorem never_crashes_lone_quote :
    Rule.print.accepts "print(é)".toList = true ∧
    (∀ b, Crashless ((handle {} "print(é)".toList .print).on b)) ∧
    (run {} "é xs.append(')\nprint(é)\nif é:".toList).printed =
      ["Added  to xs".toList, "é".toList, "Condition \"é\" is true".toList] := by
  obtain ⟨-, handled, -, runs⟩ := never_crashes {}
  have accepted : Rule.print.accepts "print(é)".toList = true := by decide
  refine ⟨accepted, (handled _ _ accepted).2, ?_⟩
  rw [(runs _).2]
  decide +kernel

end

end Checked
end BlockCanvas
