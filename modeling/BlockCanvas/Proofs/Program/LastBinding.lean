import BlockCanvas.Proofs.Program.Run
import BlockCanvas.Proofs.Program.Words

/-!
# The last binding of a name

Three kinds of lines bind a name: an assignment, the header of a loop with at least one number, and
an append.  `Rule.target?` is the name and `Rule.given?` the value, which the table before the line
determines.  All other lines leave the name as it is, also where they fault
(`get?_step_of_target?_ne`), so a name is printed as the value that the last line with this target
gave it: `step_print_last_binding`.
-/

namespace BlockCanvas
namespace Rule

/-- The name that a rule binds when it handles a line to its end. -/
def target? (line : Text) : Rule → Option Text
  | .assignment => (Text.splitOnce " = ".toList line).map fun sides => Text.trim sides.1
  | .forRange => (Shape.range? line).bind fun r => if r.start < r.stop then some r.var else none
  | .append => (Shape.append? line).map fun parts => parts.1
  | .print | .input | .ifHeader | .defHeader | .listLiteral | .echo => none

/-- The value that a rule gives to the name it binds: that of the assigned expression, the last
number of the loop, or the list with the item at its end. -/
def given? (b : Bindings) (line : Text) : Rule → Option Value
  | .assignment => do
    let (_, e) ← Text.splitOnce " = ".toList line
    (Expression.evaluate b (Text.trim e)).toOption
  | .forRange => (Shape.range? line).map fun r => .number (.ofNat (r.stop - 1))
  | .append => do
    let (name, e) ← Shape.append? line
    match (b.opened name).get? name, Expression.evaluate (b.opened name) e with
    | some (.list items), .ok item => some (.list (items ++ [item]))
    | _, _ => none
  | .print | .input | .ifHeader | .defHeader | .listLiteral | .echo => none

end Rule

namespace Statement

open BlockCanvas.Action

variable {config : Config} {b : Bindings} {line name : Text} {rule : Rule}

/-! ### Lines that leave a name alone -/

section

variable {I : Bindings → Prop}

theorem keeps_eval_any (e : Text) : Keeps I (fun _ => True) (eval e) :=
  keeps_compute fun _ _ _ _ => trivial

/-- Printing a line ends a statement. -/
theorem keeps_print_taken_any (shown : Text) :
    Keeps I (fun _ => True)
      (do Action.print shown; return Verdict.taken : Action Fault Verdict) :=
  (keeps_print shown).bind fun _ _ => keeps_pure trivial

theorem keeps_listOf_of_bind (stays : ∀ b v, I b → I (b.bind name v)) :
    Keeps I (fun _ => True) (listOf name) := by
  intro b hb
  obtain ⟨v, -, found⟩ := on_listOf b name
  rw [found]
  refine ⟨?_, fun _ _ => trivial⟩
  show I (b.opened name)
  rw [Bindings.opened]
  split
  · split
    · exact hb
    · exact stays b _ hb
  · exact stays b _ hb

theorem keeps_forRange_of_target (stays : ∀ name, Rule.forRange.target? line = some name →
    ∀ b v, I b → I (b.bind name v)) : Keeps I (fun _ => True) (forRange config line) := by
  unfold forRange
  split
  · exact keeps_pure trivial
  · next r shape =>
    dsimp only
    split
    · exact keeps_fail _
    · refine Keeps.bind (keeps_forEach ?_) fun _ _ => keeps_pure trivial
      intro i hi
      -- a loop that takes a turn has its variable as target
      have turn : r.start < r.stop := by
        have := List.mem_range'_1.1 hi
        omega
      have target : Rule.forRange.target? line = some r.var := by
        rw [Rule.target?, shape, Option.bind_some, if_pos turn]
      exact (keeps_store fun b => stays r.var target b _).bind fun _ _ => keeps_print _

theorem keeps_append_of_target (stays : ∀ name, Rule.append.target? line = some name →
    ∀ b v, I b → I (b.bind name v)) : Keeps I (fun _ => True) (append config line) := by
  unfold append
  split
  · exact keeps_pure trivial
  · next list e shape =>
    have target : Rule.append.target? line = some list := by
      rw [Rule.target?, shape, Option.map_some]
    apply (keeps_listOf_of_bind (stays list target)).bind
    intro v _
    apply (keeps_eval_any e).bind
    intro item _
    apply Keeps.bind (Q := fun _ => True) (keeps_compute fun _ _ _ _ => trivial)
    intro grown _
    exact (keeps_store fun b => stays list target b grown).bind fun _ _ => keeps_print_taken_any _

/-- A rule changes the table by binding its target, and in no other way, also where it faults. -/
theorem keeps_handle_of_target (stays : ∀ name, rule.target? line = some name →
    ∀ b v, I b → I (b.bind name v)) : Keeps I (fun _ => True) (handle config line rule) := by
  cases rule with
  | assignment =>
    show Keeps _ _ (assign line)
    unfold assign
    split
    · exact keeps_pure trivial
    · next left e cut =>
      have target : Rule.assignment.target? line = some (Text.trim left) := by
        rw [Rule.target?, cut, Option.map_some]
      apply (keeps_eval_any _).bind
      intro v _
      exact (keeps_store fun b => stays _ target b v).bind fun _ _ => keeps_pure trivial
  | print =>
    show Keeps _ _ (Statement.print line)
    unfold Statement.print
    split
    · exact keeps_pure trivial
    · exact (keeps_eval_any _).bind fun _ _ => keeps_print_taken_any _
  | input =>
    show Keeps _ _ (input config line)
    unfold input
    split
    · exact keeps_pure trivial
    · exact (keeps_print _).bind fun _ _ => keeps_print_taken_any _
  | forRange => exact keeps_forRange_of_target stays
  | ifHeader =>
    show Keeps _ _ (ifHeader line)
    unfold ifHeader
    split
    · exact keeps_pure trivial
    · apply Keeps.bind (Q := fun _ => True) (keeps_compute fun _ _ _ _ => trivial)
      intro truth _
      cases truth with
      | false => exact keeps_pure trivial
      | true => exact keeps_print_taken_any _
  | defHeader =>
    show Keeps _ _ (defHeader line)
    unfold defHeader
    split
    · exact keeps_pure trivial
    · exact keeps_print_taken_any _
  | append => exact keeps_append_of_target stays
  | listLiteral =>
    show Keeps _ _ (listLiteral line)
    unfold listLiteral
    split
    · exact keeps_pure trivial
    · exact (keeps_mapM fun _ _ => keeps_eval_any _).bind fun _ _ => keeps_print_taken_any _
  | echo => exact keeps_print_taken_any _

end

theorem get?_step_of_target?_ne (taken : TakenBy config b line Rule.all rule)
    (ne : rule.target? line ≠ some name) :
    ((step config line).on b).bindings.get? name = b.get? name := by
  have kept : Keeps (fun b' => b'.get? name = b.get? name) (fun _ => True)
      (handle config line rule) := by
    apply keeps_handle_of_target
    rintro target hit b' v same
    have other : name ≠ target := by
      rintro rfl
      exact ne hit
    exact (Bindings.get?_bind_of_ne b' v other).trans same
  rw [step, stepWith_of_takenBy taken]
  exact (kept b rfl).1

/-! ### Lines that bind a name -/

theorem exists_given?_of_handle {verdict : Verdict} (target : rule.target? line = some name)
    (done : ((handle config line rule).on b).result = .ok verdict) :
    ∃ v, rule.given? b line = some v ∧
      ((handle config line rule).on b).bindings.get? name = some v := by
  cases rule with
  | assignment =>
    obtain ⟨⟨left, e⟩, cut, rfl⟩ := Option.map_eq_some_iff.1 target
    obtain ⟨v, value, whole⟩ := on_assign_of_ok cut done
    refine ⟨v, ?_, ?_⟩
    · rw [Rule.given?, cut]
      show (Expression.evaluate b (Text.trim e)).toOption = some v
      rw [value]
      rfl
    · show ((assign line).on b).bindings.get? _ = _
      rw [whole]
      exact Bindings.get?_bind_self ..
  | forRange =>
    obtain ⟨r, shape, turn⟩ := Option.bind_eq_some_iff.1 target
    split at turn
    case isFalse => cases turn
    case isTrue numbers =>
      cases turn
      refine ⟨.number (.ofNat (r.stop - 1)), ?_, ?_⟩
      · rw [Rule.given?, shape, Option.map_some]
      · show ((forRange config line).on b).bindings.get? _ = _
        rw [on_forRange shape (forRange_of_ok shape done), looped, if_pos numbers]
        exact Bindings.get?_bind_self ..
  | append =>
    obtain ⟨⟨list, e⟩, shape, rfl⟩ := Option.map_eq_some_iff.1 target
    obtain ⟨items, item, bound, value, whole⟩ := on_append_of_ok shape done
    refine ⟨.list (items ++ [item]), ?_, ?_⟩
    · rw [Rule.given?, shape]
      show (match (b.opened list).get? list, Expression.evaluate (b.opened list) e with
        | some (.list items), .ok item => some (Value.list (items ++ [item]))
        | _, _ => none) = _
      rw [bound, value]
    · show ((append config line).on b).bindings.get? _ = _
      rw [whole]
      exact Bindings.get?_bind_self ..
  | print | input | ifHeader | defHeader | listLiteral | echo => cases target

/-- A line that comes to an end leaves its target bound to the value that it gives. -/
theorem exists_given?_of_step (taken : TakenBy config b line Rule.all rule)
    (target : rule.target? line = some name) (done : ((step config line).on b).result = .ok ()) :
    ∃ v, rule.given? b line = some v ∧ ((step config line).on b).bindings.get? name = some v := by
  rw [step, stepWith_of_takenBy taken] at done ⊢
  cases result : ((handle config line rule).on b).result with
  | ok verdict => exact exists_given?_of_handle target result
  | error fault =>
    rw [result] at done
    cases done

end Statement

namespace Program

open BlockCanvas.Action Statement

variable {config : Config} {b : Bindings} {lines more : List Text} {line name : Text} {v : Value}

/-- No line of these has the name as its target. -/
def Untouched (config : Config) (b : Bindings) (lines : List Text) (name : Text) : Prop :=
  ∀ before line after rule, lines = before ++ line :: after →
    TakenBy config ((perform config before).on b).bindings line Rule.all rule →
    rule.target? line ≠ some name

/-- One of these lines gives the name the value, and no line after it has the name as its
target. -/
def LastBinding (config : Config) (b : Bindings) (lines : List Text) (name : Text) (v : Value) :
    Prop :=
  ∃ before line after rule, lines = before ++ line :: after ∧
    TakenBy config ((perform config before).on b).bindings line Rule.all rule ∧
    rule.target? line = some name ∧
    rule.given? ((perform config before).on b).bindings line = some v ∧
    Untouched config ((perform config (before ++ [line])).on b).bindings after name

/-! ### Runs -/

theorem result_perform_append (h : ((perform config (lines ++ more)).on b).result = .ok ()) :
    ((perform config lines).on b).result = .ok () ∧
      ((perform config more).on ((perform config lines).on b).bindings).result = .ok () := by
  rw [perform_append] at h
  cases first : ((perform config lines).on b).result with
  | ok _ =>
    rw [on_bind_of_ok first] at h
    exact ⟨rfl, h⟩
  | error failure =>
    rw [on_bind_of_error first] at h
    cases h

theorem bindings_perform_append (h : ((perform config lines).on b).result = .ok ()) :
    ((perform config (lines ++ more)).on b).bindings =
      ((perform config more).on ((perform config lines).on b).bindings).bindings := by
  rw [perform_append, on_bind_of_ok h]

theorem untouched_nil (config : Config) (b : Bindings) (name : Text) :
    Untouched config b [] name := by
  intro before line after rule parts
  cases before <;> cases parts

theorem Untouched.concat (h : Untouched config b lines name)
    (last : ∀ rule, TakenBy config ((perform config lines).on b).bindings line Rule.all rule →
      rule.target? line ≠ some name) : Untouched config b (lines ++ [line]) name := by
  intro before l after rule parts
  rcases List.eq_nil_or_concat after with rfl | ⟨after, x, rfl⟩
  · obtain ⟨rfl, same⟩ := List.append_inj' parts rfl
    cases same
    exact last rule
  · have parts' : lines ++ [line] = (before ++ l :: after) ++ [x] := by simpa using parts
    exact h before l after rule (List.append_inj' parts' rfl).1

theorem Untouched.init (h : Untouched config b (lines ++ more) name) :
    Untouched config b lines name := by
  rintro before line after rule rfl
  exact h before line (after ++ more) rule (by simp)

/-- A name keeps its value through lines that do not have it as their target, also where a fault
ends them. -/
theorem Untouched.get? (h : Untouched config b lines name) :
    ((perform config lines).on b).bindings.get? name = b.get? name := by
  induction lines using List.reverseRecOn with
  | nil => rfl
  | append_singleton lines line ih =>
    rw [perform_append]
    cases first : ((perform config lines).on b).result with
    | error failure =>
      rw [on_bind_of_error first]
      exact ih h.init
    | ok _ =>
      rw [on_bind_of_ok first, perform_singleton]
      obtain ⟨rule, taken⟩ := exists_takenBy config ((perform config lines).on b).bindings line
      exact (get?_step_of_target?_ne taken (h lines line [] rule rfl taken)).trans (ih h.init)

/-- After lines that come to an end, a name reads as its last binding. -/
theorem LastBinding.get? (h : LastBinding config b lines name v)
    (done : ((perform config lines).on b).result = .ok ()) :
    ((perform config lines).on b).bindings.get? name = some v := by
  obtain ⟨before, line, after, rule, rfl, taken, target, given, untouched⟩ := h
  rw [List.append_cons] at done ⊢
  have here := (result_perform_append done).1
  have first := (result_perform_append here).1
  have last := (result_perform_append here).2
  rw [bindings_perform_append here, untouched.get?, bindings_perform_append first]
  rw [perform_singleton] at last ⊢
  obtain ⟨w, given', bound⟩ := exists_given?_of_step taken target last
  rw [bound, ← given', given]

/-- Lines that come to an end have a last binding of a name, unless none of them has the name as its
target.  The induction is on the last line. -/
theorem exists_lastBinding_or_untouched (done : ((perform config lines).on b).result = .ok ()) :
    (∃ v, LastBinding config b lines name v) ∨ Untouched config b lines name := by
  induction lines using List.reverseRecOn with
  | nil => exact .inr (untouched_nil config b name)
  | append_singleton lines line ih =>
    obtain ⟨first, last⟩ := result_perform_append done
    by_cases here : ∃ rule, TakenBy config ((perform config lines).on b).bindings line Rule.all rule
        ∧ rule.target? line = some name
    · obtain ⟨rule, taken, target⟩ := here
      rw [perform_singleton] at last
      obtain ⟨v, given, -⟩ := exists_given?_of_step taken target last
      exact .inl ⟨v, lines, line, [], rule, rfl, taken, target, given, untouched_nil _ _ _⟩
    · have other : ∀ rule,
          TakenBy config ((perform config lines).on b).bindings line Rule.all rule →
            rule.target? line ≠ some name := fun rule taken target => here ⟨rule, taken, target⟩
      rcases ih first with ⟨v, before, l, after, rule, rfl, taken, target, given, untouched⟩ | none
      · refine .inl ⟨v, before, l, after ++ [line], rule, by simp, taken, target, given, ?_⟩
        apply untouched.concat
        rw [List.append_cons] at first other
        rwa [← bindings_perform_append (result_perform_append first).1]
      · exact .inr (none.concat other)

/-- A line that comes to an end shows what it prints after the output of the lines before it. -/
theorem exists_output_eq {source : Text} {before after shown : List Text}
    (parts : programLines source = before ++ line :: after)
    (done : ((perform config before).on .empty).result = .ok ())
    (here : (step config line).on ((perform config before).on .empty).bindings =
      ⟨b, shown, .ok ()⟩) :
    ∃ later, (execute config source).output =
      ((perform config before).on .empty).printed ++ shown ++ later := by
  show ∃ later, ((perform config (programLines source)).on .empty).printed = _
  rw [parts, perform_append, on_bind_of_ok done, perform_cons_of_ok here]
  exact ⟨_, (List.append_assoc ..).symm⟩

/-- A line `print(n)` prints one line: the value that the last line with the target `n` gave to it,
or `n` itself if there was none.  A line binds its target to the value that it gives if it comes to
an end, and leaves all other names as they are in any case. -/
theorem step_print_last_binding (config : Config) :
    (∀ (source n : Text) (before after : List Text), (∀ c ∈ n, Text.isWordChar c) →
      Binary64.literal? n = none →
      programLines source = before ++ ("print(".toList ++ n ++ [')']) :: after →
      ((perform config before).on .empty).result = .ok () →
      ∃ shown, (step config ("print(".toList ++ n ++ [')'])).on
            ((perform config before).on .empty).bindings =
          ⟨((perform config before).on .empty).bindings, [shown], .ok ()⟩ ∧
        (∃ later, (execute config source).output =
          ((perform config before).on .empty).printed ++ [shown] ++ later) ∧
        (∀ v, LastBinding config .empty before n v → shown = v.display) ∧
        (Untouched config .empty before n → shown = n) ∧
        ((∃ v, LastBinding config .empty before n v) ∨ Untouched config .empty before n)) ∧
    ∀ b line rule n, TakenBy config b line Rule.all rule →
      (rule.target? line ≠ some n → ((step config line).on b).bindings.get? n = b.get? n) ∧
      (rule.target? line = some n → ((step config line).on b).result = .ok () →
        ∃ v, rule.given? b line = some v ∧
          ((step config line).on b).bindings.get? n = some v) := by
  refine ⟨?_, fun b line rule n taken => ⟨get?_step_of_target?_ne taken,
    exists_given?_of_step taken⟩⟩
  intro source n before after chars plain parts done
  have word : Text.IsWord n := by
    refine ⟨?_, chars⟩
    rintro rfl
    cases plain
  have printed := step_print_word word plain config ((perform config before).on .empty).bindings
  refine ⟨_, printed, exists_output_eq parts done printed, fun v last => ?_,
    fun untouched => ?_, exists_lastBinding_or_untouched done⟩
  · rw [last.get? done]
    rfl
  · rw [untouched.get?, Bindings.get?_empty]
    rfl

/-- A name that is bound to zero, then to a list, and then left alone by a loop over another
name. -/
def overwritten : List Text :=
  ["input = 0".toList, "input.append(7)".toList, "for i in range(2):".toList]

theorem step_print_last_binding_overwritten :
    (∀ c ∈ "input".toList, Text.isWordChar c) ∧ Binary64.literal? "input".toList = none ∧
      programLines "input = 0\ninput.append(7)\nfor i in range(2):\nprint(input)".toList =
        overwritten ++ ("print(".toList ++ "input".toList ++ [')']) :: [] ∧
      ((perform {} overwritten).on .empty).result = .ok () ∧
      (∃ v, LastBinding {} .empty overwritten "input".toList v ∧
        (step {} ("print(".toList ++ "input".toList ++ [')'])).on
            ((perform {} overwritten).on .empty).bindings =
          ⟨((perform {} overwritten).on .empty).bindings, [v.display], .ok ()⟩ ∧
        v.display = "7".toList) ∧
      TakenBy {} .empty "input.append(7)".toList Rule.all .append ∧
      Rule.append.target? "input.append(7)".toList = some "input".toList ∧
      ((step {} "input.append(7)".toList).on .empty).result = .ok () ∧
      (∃ v, Rule.append.given? .empty "input.append(7)".toList = some v ∧
        ((step {} "input.append(7)".toList).on .empty).bindings.get? "input".toList = some v) ∧
      ((step {} "input.append(7)".toList).on .empty).bindings.get? "i".toList = none := by
  have word : Text.IsWord "input".toList := by decide
  have plain : Binary64.literal? "input".toList = none := by decide +kernel
  have parts : programLines "input = 0\ninput.append(7)\nfor i in range(2):\nprint(input)".toList =
      overwritten ++ ("print(".toList ++ "input".toList ++ [')']) :: [] := by decide +kernel
  have done : ((perform {} overwritten).on .empty).result = .ok () := by
    have lines : programLines "input = 0\ninput.append(7)\nfor i in range(2):".toList =
        overwritten := by decide +kernel
    rw [← lines]
    exact result_of_error_eq_none (by decide +kernel)
  have seven : Text.IsWord ['7'] := by decide
  have taken (b : Bindings) : TakenBy {} b "input.append(7)".toList Rule.all .append :=
    takenBy_appendLine word seven {} b
  have target : Rule.append.target? "input.append(7)".toList = some "input".toList := by
    decide +kernel
  have last : ∃ v, LastBinding {} .empty overwritten "input".toList v := by
    have given : (Rule.append.given? ((perform {} ["input = 0".toList]).on .empty).bindings
        "input.append(7)".toList).isSome := by decide +kernel
    obtain ⟨v, given⟩ := Option.isSome_iff_exists.1 given
    refine ⟨v, _, _, _, .append, rfl, taken _, target, given, ?_⟩
    intro before line after rule parts _
    rcases before with _ | ⟨first, before⟩
    · cases parts
      cases rule <;> decide +kernel
    · cases before <;> cases parts
  have theorems := step_print_last_binding {}
  obtain ⟨v, last⟩ := last
  obtain ⟨shown, printed, -, value, -, -⟩ := theorems.1 _ _ _ _ word.chars plain parts done
  obtain rfl := value v last
  have appended : ((step {} "input.append(7)".toList).on .empty).result = .ok () := by
    have lines : programLines "input.append(7)".toList = ["input.append(7)".toList] := by
      decide +kernel
    rw [← perform_singleton, ← lines]
    exact result_of_error_eq_none (by decide +kernel)
  have number : ((step {} ("print(".toList ++ "input".toList ++ [')'])).on
      ((perform {} overwritten).on .empty).bindings).printed = ["7".toList] := by decide +kernel
  rw [printed] at number
  have line := theorems.2 .empty "input.append(7)".toList .append
  exact ⟨word.chars, plain, parts, done, ⟨v, last, printed, (List.cons.inj number).1⟩, taken _,
    target, appended, (line _ (taken _)).2 target appended,
    ((line "i".toList (taken _)).1 (by rw [target]; decide)).trans rfl⟩

end Program
end BlockCanvas
