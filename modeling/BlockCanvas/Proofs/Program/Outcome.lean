import BlockCanvas.Proofs.Program.Handlers
import BlockCanvas.Proofs.Text.Parts

/-!
# What a line can do

All that a line can do to a table, as one relation: `Outcome`.  A line that comes to an end binds
one name or none and prints what its statement prints.  A line that faults prints nothing, and only
an append may have changed the table before it: `Cause`.

Main statement: `outcome_step`.  What holds after every outcome holds after every line, and what
holds after every `Change` holds of the table after every line.
-/

namespace BlockCanvas
namespace Statement

open BlockCanvas.Action Expression

/-- The fault of a line with the rule that raises it, and the table that is left: an expression on
the line has no value, a loop is too long, or an append has opened its list and comes to no end. -/
inductive Cause (config : Config) (b : Bindings) (line : Text) : Bindings → Rule → Fault → Prop
  | expression {rule : Rule} {e : Text} {fault : Fault} (inside : e <:+: line)
      (value : evaluate b e = .error fault) : Cause config b line b rule fault
  | turns {r : Shape.Range} (shape : Shape.range? line = some r)
      (many : config.maxLoopIterations < r.stop - r.start) : Cause config b line b .forRange
        (.rangeTooLong r.start r.stop (r.stop - r.start) config.maxLoopIterations)
  | item {name e : Text} {fault : Fault} (shape : Shape.append? line = some (name, e))
      (value : evaluate (b.opened name) e = .error fault) :
      Cause config b line (b.opened name) .append fault
  | list {name e : Text} {target item : Value} {fault : Fault}
      (shape : Shape.append? line = some (name, e))
      (bound : (b.opened name).get? name = some target)
      (value : evaluate (b.opened name) e = .ok item)
      (grown : appended config name target item = .error fault) :
      Cause config b line (b.opened name) .append fault

/-- What a line can do. -/
inductive Outcome (config : Config) (b : Bindings) (line : Text) : Effect Failure Unit → Prop
  | assigned {name e : Text} {v : Value} (cut : Text.splitOnce " = ".toList line = some (name, e))
      (value : evaluate b (Text.trim e) = .ok v) :
      Outcome config b line ⟨b.bind (Text.trim name) v, [], .ok ()⟩
  | printed {e : Text} {v : Value} (inner : Text.between? "print(".toList [')'] line = some e)
      (value : evaluate b e = .ok v) : Outcome config b line ⟨b, [v.display], .ok ()⟩
  | prompted {prompt : Text} (shape : Shape.prompt? line = some prompt) :
      Outcome config b line ⟨b, [echoMark ++ prompt, config.simulatedInput], .ok ()⟩
  | looped {r : Shape.Range} (shape : Shape.range? line = some r)
      (few : r.stop - r.start ≤ config.maxLoopIterations) :
      Outcome config b line ⟨Statement.looped b r, (List.range' r.start (r.stop - r.start)).map
        fun i => r.var ++ " = ".toList ++ Text.ofNat i, .ok ()⟩
  | told {condition : Text} (inner : Text.between? "if ".toList [':'] line = some condition)
      (truth : holds b condition = .ok true) :
      Outcome config b line ⟨b, ["Condition \"".toList ++ condition ++ "\" is true".toList], .ok ()⟩
  | untold {condition : Text} (inner : Text.between? "if ".toList [':'] line = some condition)
      (truth : holds b condition = .ok false) : Outcome config b line ⟨b, [], .ok ()⟩
  | defined {name params : Text} (shape : Shape.function? line = some (name, params)) :
      Outcome config b line ⟨b, ["Function \"".toList ++ name ++
        "\" defined with parameters: ".toList ++ if params = [] then "none".toList else params],
        .ok ()⟩
  | appended {name e : Text} {target item grown : Value}
      (shape : Shape.append? line = some (name, e))
      (bound : (b.opened name).get? name = some target)
      (value : evaluate (b.opened name) e = .ok item)
      (grows : Statement.appended config name target item = .ok grown) :
      Outcome config b line ⟨(b.opened name).bind name grown,
        ["Added ".toList ++ item.display ++ " to ".toList ++ name], .ok ()⟩
  | listed {inner : Text} {vs : List Value} (shape : Text.between? ['['] [']'] line = some inner)
      (values : ((Text.splitChar ',' inner).mapM fun e => evaluate b (Text.trim e)) = .ok vs) :
      Outcome config b line ⟨b, [listShown vs], .ok ()⟩
  | echoed : Outcome config b line ⟨b, [echoMark ++ line], .ok ()⟩
  | faulted {b' : Bindings} {rule : Rule} {fault : Fault}
      (cause : Cause config b line b' rule fault) :
      Outcome config b line ⟨b', [], .error ⟨line, rule, fault⟩⟩

/-- What a line can do to the table. -/
inductive Change (config : Config) (b : Bindings) (line : Text) : Bindings → Prop
  | same : Change config b line b
  | assigned {name e : Text} {v : Value} (cut : Text.splitOnce " = ".toList line = some (name, e))
      (value : evaluate b (Text.trim e) = .ok v) :
      Change config b line (b.bind (Text.trim name) v)
  | looped {r : Shape.Range} (shape : Shape.range? line = some r) :
      Change config b line (Statement.looped b r)
  | opened {name e : Text} (shape : Shape.append? line = some (name, e)) :
      Change config b line (b.opened name)
  | appended {name e : Text} {target item grown : Value}
      (shape : Shape.append? line = some (name, e))
      (bound : (b.opened name).get? name = some target)
      (value : evaluate (b.opened name) e = .ok item)
      (grows : Statement.appended config name target item = .ok grown) :
      Change config b line ((b.opened name).bind name grown)

variable {config : Config} {b b' : Bindings} {line : Text} {rule : Rule}

theorem Cause.change {fault : Fault} (cause : Cause config b line b' rule fault) :
    Change config b line b' := by
  cases cause with
  | expression => exact .same
  | turns => exact .same
  | item shape => exact .opened shape
  | list shape => exact .opened shape

theorem Outcome.change {effect : Effect Failure Unit} (outcome : Outcome config b line effect) :
    Change config b line effect.bindings := by
  cases outcome with
  | assigned cut value => exact .assigned cut value
  | looped shape => exact .looped shape
  | appended shape bound value grows => exact .appended shape bound value grows
  | faulted cause => exact cause.change
  | _ => exact .same

/-! ### From the handler to the line -/

/-- The rule that takes a line does not pass it on. -/
theorem TakenBy.handle_ne_passed {rules : List Rule} (taken : TakenBy config b line rules rule) :
    handle config line rule ≠ pure .passed := by
  obtain ⟨-, -, -, -, last⟩ := taken
  intro passed
  apply last
  intro _
  rw [passed]
  rfl

theorem on_step_of_taken {shown : List Text} (taken : TakenBy config b line Rule.all rule)
    (h : (handle config line rule).on b = ⟨b', shown, .ok .taken⟩) :
    (step config line).on b = ⟨b', shown, .ok ()⟩ := by
  rw [step, stepWith_of_takenBy taken, h]

theorem outcome_of_fault {fault : Fault} (taken : TakenBy config b line Rule.all rule)
    (h : (handle config line rule).on b = ⟨b', [], .error fault⟩)
    (cause : Cause config b line b' rule fault) :
    Outcome config b line ((step config line).on b) := by
  rw [step, stepWith_of_takenBy taken, h]
  exact .faulted cause

/-! ### The rules one by one -/

/-- The sides of a condition are expressions on its line. -/
theorem exists_evaluate_of_holds {condition : Text} {fault : Fault}
    (truth : holds b condition = .error fault) :
    ∃ e, e <:+: condition ∧ evaluate b e = .error fault := by
  unfold holds at truth
  split at truth
  case h_1 c left right cut =>
    obtain ⟨inLeft, inRight⟩ := infix_of_cutCondition? cut
    cases first : evaluate b left with
    | error fault' =>
      rw [first, error_bind] at truth
      cases truth
      exact ⟨left, inLeft, first⟩
    | ok l =>
      rw [first, ok_bind] at truth
      cases second : evaluate b right with
      | error fault' =>
        rw [second, error_bind] at truth
        cases truth
        exact ⟨right, inRight, second⟩
      | ok r =>
        rw [second, ok_bind] at truth
        cases truth
  case h_2 =>
    cases value : evaluate b condition with
    | error fault' =>
      rw [value, error_bind] at truth
      cases truth
      exact ⟨condition, List.infix_rfl, value⟩
    | ok v =>
      rw [value, ok_bind] at truth
      cases truth

theorem outcome_assignment (taken : TakenBy config b line Rule.all .assignment) :
    Outcome config b line ((step config line).on b) := by
  cases cut : Text.splitOnce " = ".toList line with
  | none =>
    refine absurd ?_ taken.handle_ne_passed
    rw [handle, assign, cut]
  | some sides =>
    obtain ⟨name, e⟩ := sides
    cases value : evaluate b (Text.trim e) with
    | ok v =>
      rw [on_step_of_taken taken (on_assign cut value)]
      exact .assigned cut value
    | error fault =>
      have faults : (handle config line .assignment).on b = ⟨b, [], .error fault⟩ := by
        rw [handle, assign, cut]
        exact on_bind_of_on_error (on_eval_of_error value)
      have inside := (Text.trim_infix e).trans (Text.infix_of_splitOnce cut).2
      exact outcome_of_fault taken faults (.expression inside value)

theorem outcome_print (taken : TakenBy config b line Rule.all .print) :
    Outcome config b line ((step config line).on b) := by
  cases inner : Text.between? "print(".toList [')'] line with
  | none =>
    refine absurd ?_ taken.handle_ne_passed
    rw [handle, Statement.print, inner]
  | some e =>
    cases value : evaluate b e with
    | ok v =>
      rw [on_step_of_taken taken (on_print inner value)]
      exact .printed inner value
    | error fault =>
      have faults : (handle config line .print).on b = ⟨b, [], .error fault⟩ := by
        rw [handle, Statement.print, inner]
        exact on_bind_of_on_error (on_eval_of_error value)
      exact outcome_of_fault taken faults (.expression (Text.infix_of_between? inner) value)

theorem outcome_input (taken : TakenBy config b line Rule.all .input) :
    Outcome config b line ((step config line).on b) := by
  cases shape : Shape.prompt? line with
  | none =>
    refine absurd ?_ taken.handle_ne_passed
    rw [handle, input, shape]
  | some prompt =>
    have prints : (handle config line .input).on b =
        ⟨b, [echoMark ++ prompt, config.simulatedInput], .ok .taken⟩ := by
      rw [handle, input, shape]
      rfl
    rw [on_step_of_taken taken prints]
    exact .prompted shape

theorem outcome_forRange (taken : TakenBy config b line Rule.all .forRange) :
    Outcome config b line ((step config line).on b) := by
  cases shape : Shape.range? line with
  | none =>
    refine absurd ?_ taken.handle_ne_passed
    rw [handle, forRange, shape]
  | some r =>
    rcases Nat.lt_or_ge config.maxLoopIterations (r.stop - r.start) with many | few
    · exact outcome_of_fault taken (on_forRange_of_lt shape many) (.turns shape many)
    · rw [on_step_of_taken taken (on_forRange shape few)]
      exact .looped shape few

theorem outcome_ifHeader (taken : TakenBy config b line Rule.all .ifHeader) :
    Outcome config b line ((step config line).on b) := by
  cases inner : Text.between? "if ".toList [':'] line with
  | none =>
    refine absurd ?_ taken.handle_ne_passed
    rw [handle, ifHeader, inner]
  | some condition =>
    cases truth : holds b condition with
    | ok told =>
      cases told with
      | true =>
        rw [on_step_of_taken taken (on_ifHeader inner truth)]
        exact .told inner truth
      | false =>
        have silent : (handle config line .ifHeader).on b = ⟨b, [], .ok .taken⟩ := by
          rw [handle, ifHeader, inner]
          dsimp only
          rw [on_bind_of_on_ok (by rw [on_compute, truth])]
          rfl
        rw [on_step_of_taken taken silent]
        exact .untold inner truth
    | error fault =>
      have faults : (handle config line .ifHeader).on b = ⟨b, [], .error fault⟩ := by
        rw [handle, ifHeader, inner]
        exact on_bind_of_on_error (by rw [on_compute, truth])
      obtain ⟨e, inside, value⟩ := exists_evaluate_of_holds truth
      exact outcome_of_fault taken faults
        (.expression (inside.trans (Text.infix_of_between? inner)) value)

theorem outcome_defHeader (taken : TakenBy config b line Rule.all .defHeader) :
    Outcome config b line ((step config line).on b) := by
  cases shape : Shape.function? line with
  | none =>
    refine absurd ?_ taken.handle_ne_passed
    rw [handle, defHeader, shape]
  | some header =>
    obtain ⟨name, params⟩ := header
    have prints : (handle config line .defHeader).on b =
        ⟨b, ["Function \"".toList ++ name ++ "\" defined with parameters: ".toList ++
          if params = [] then "none".toList else params], .ok .taken⟩ := by
      rw [handle, defHeader, shape]
      rfl
    rw [on_step_of_taken taken prints]
    exact .defined shape

/-- An append opens its list before anything can fault. -/
theorem outcome_append (taken : TakenBy config b line Rule.all .append) :
    Outcome config b line ((step config line).on b) := by
  cases shape : Shape.append? line with
  | none =>
    refine absurd ?_ taken.handle_ne_passed
    rw [handle, append, shape]
  | some parts =>
    obtain ⟨name, e⟩ := parts
    obtain ⟨target, bound, opens⟩ := on_listOf b name
    cases value : evaluate (b.opened name) e with
    | error fault =>
      have faults : (handle config line .append).on b = ⟨b.opened name, [], .error fault⟩ := by
        rw [handle, append, shape]
        dsimp only
        rw [on_bind_of_on_ok opens, on_bind_of_on_error (on_eval_of_error value)]
        rfl
      exact outcome_of_fault taken faults (.item shape value)
    | ok item =>
      have whole := on_append config shape bound value
      cases grows : Statement.appended config name target item with
      | ok grown =>
        rw [grows] at whole
        rw [on_step_of_taken taken whole]
        exact .appended shape bound value grows
      | error fault =>
        rw [grows] at whole
        exact outcome_of_fault taken whole (.list shape bound value grows)

theorem outcome_listLiteral (taken : TakenBy config b line Rule.all .listLiteral) :
    Outcome config b line ((step config line).on b) := by
  cases shape : Text.between? ['['] [']'] line with
  | none =>
    refine absurd ?_ taken.handle_ne_passed
    rw [handle, listLiteral, shape]
  | some inner =>
    have whole := on_listLiteral (b := b) shape
    cases values : (Text.splitChar ',' inner).mapM fun e => evaluate b (Text.trim e) with
    | ok vs =>
      rw [values] at whole
      rw [on_step_of_taken taken whole]
      exact .listed shape values
    | error fault =>
      rw [values] at whole
      obtain ⟨e, member, value⟩ := exists_of_mapM_eq_error values
      have inside := ((Text.trim_infix e).trans (Text.infix_of_mem_splitChar member)).trans
        (Text.infix_of_between? shape)
      exact outcome_of_fault taken whole (.expression inside value)

/-- Whatever a line does is one of the outcomes. -/
theorem outcome_step (config : Config) (b : Bindings) (line : Text) :
    Outcome config b line ((step config line).on b) := by
  obtain ⟨rule, taken⟩ := exists_takenBy config b line
  cases rule with
  | assignment => exact outcome_assignment taken
  | print => exact outcome_print taken
  | input => exact outcome_input taken
  | forRange => exact outcome_forRange taken
  | ifHeader => exact outcome_ifHeader taken
  | defHeader => exact outcome_defHeader taken
  | append => exact outcome_append taken
  | listLiteral => exact outcome_listLiteral taken
  | echo =>
    have echoes : (handle config line .echo).on b = ⟨b, [echoMark ++ line], .ok .taken⟩ := rfl
    rw [on_step_of_taken taken echoes]
    exact .echoed

theorem change_step (config : Config) (b : Bindings) (line : Text) :
    Change config b line ((step config line).on b).bindings :=
  (outcome_step config b line).change

end Statement
end BlockCanvas
