import BlockCanvas.Proofs.Number.Display
import BlockCanvas.Proofs.Program.Invariant
import BlockCanvas.Proofs.Program.Layout
import BlockCanvas.Proofs.Program.LoopHeader
import BlockCanvas.Proofs.Program.Outcome

/-!
# The lines of the output

An output line is one line, and so is the error of a run.  No line of a program has a line feed, and
neither has anything that a run writes between the parts of a line; so none gets into the values in
the table (`oneLine_evaluateIn`), and from there none is printed.  Only the answer to prompts comes
from elsewhere.  A prompt prints two lines, a loop as many as it has turns, and every other line of
a program at most one.

Main statement: `oneLine_output`.
-/

namespace BlockCanvas
namespace Text

variable {s t : Text}

/-- A text without line feeds. -/
def OneLine (s : Text) : Prop := '\n' ∉ s

instance (s : Text) : Decidable s.OneLine := inferInstanceAs (Decidable ('\n' ∉ s))

@[simp]
theorem oneLine_append : (s ++ t : Text).OneLine ↔ s.OneLine ∧ t.OneLine := by
  simp [OneLine]

@[simp]
theorem oneLine_cons {c : Char} : OneLine (c :: s) ↔ c ≠ '\n' ∧ s.OneLine := by
  simp [OneLine, eq_comm]

theorem OneLine.append (hs : s.OneLine) (ht : t.OneLine) : (s ++ t : Text).OneLine :=
  oneLine_append.2 ⟨hs, ht⟩

theorem OneLine.part (h : t.OneLine) (inside : s <:+: t) : s.OneLine :=
  fun feed => h (inside.subset feed)

theorem oneLine_of_visible (h : ∀ c ∈ s, isBlank c = false) : s.OneLine := by
  intro feed
  cases h '\n' feed

theorem oneLine_ofNat (n : Nat) : (ofNat n).OneLine := by
  intro feed
  cases (isDigits_ofNat n).isDigit '\n' feed

end Text

open Text (OneLine)

namespace Shape

variable {line : Text}

theorem oneLine_of_prompt? {prompt : Text} (h : prompt? line = some prompt) (whole : line.OneLine) :
    prompt.OneLine := by
  obtain ⟨before, after, rfl, ⟨-, rest, rfl⟩, -⟩ := (recognizes_prompt.eq_some_iff _ _).1 h
  simp only [Text.oneLine_append] at whole
  tauto

theorem oneLine_of_range? {r : Range} (h : range? line = some r) : r.var.OneLine := by
  obtain ⟨-, -, -, ⟨header, word, -, -, rfl⟩, -⟩ := (recognizes_forHeader.eq_some_iff _ _).1 h
  have var : header.range.var = header.var := by
    unfold LoopHeader.range
    split
    all_goals rfl
  rw [var]
  exact Text.oneLine_of_visible fun c hc => Text.isBlank_of_isWordChar (word.chars c hc)

theorem oneLine_of_function? {name params : Text} (h : function? line = some (name, params))
    (whole : line.OneLine) : name.OneLine ∧ params.OneLine := by
  obtain ⟨before, after, rfl, ⟨word, rest, rfl, -⟩, -⟩ := (recognizes_function.eq_some_iff _ _).1 h
  simp only [Text.oneLine_append] at whole
  tauto

end Shape

namespace Value

/-- The text of the value has no line feed. -/
def OneLine (v : Value) : Prop := v.display.OneLine

theorem oneLine_number (x : Binary64) : (number x).OneLine :=
  Text.oneLine_of_visible fun _ => Binary64.isBlank_of_mem_display

theorem oneLine_nil : (list []).OneLine := List.not_mem_nil

theorem oneLine_list_concat {items : List Value} {item : Value} (h : (list items).OneLine)
    (last : item.OneLine) : (list (items ++ [item])).OneLine := by
  rw [OneLine, display_list_concat]
  split
  · exact last
  · simpa using ⟨h, last⟩

theorem oneLine_kind (v : Value) : v.kind.OneLine := by
  cases v with
  | text s => show Text.OneLine "string".toList; decide
  | number x => show Text.OneLine "number".toList; decide
  | list items => show Text.OneLine "list".toList; decide

end Value

/-- Neither the text of the value nor the message of the fault has a line feed. -/
def Fault.OneLineResult : Except Fault Value → Prop
  | .ok v => v.OneLine
  | .error fault => fault.message.OneLine

namespace Expression

open Fault (OneLineResult)

variable {b : Bindings}

/-! ### Expressions -/

theorem oneLine_atom? (hb : b.All Value.OneLine) {e : Text} (whole : e.OneLine) {v : Value}
    (h : atom? b e = some v) : v.OneLine := by
  unfold atom? at h
  split at h
  · next quoted =>
    cases h
    exact whole.part (infix_of_unquote? quoted)
  · split at h
    · cases h
      exact Value.oneLine_number _
    · exact hb.get? h

theorem oneLine_compute (op : Operator) (x y : Binary64) : OneLineResult (compute op x y) := by
  have token (op : Operator) : op.token.OneLine := by
    cases op
    all_goals decide
  have numbers (z : Binary64) : z.display.OneLine := Value.oneLine_number z
  have finite (z : Binary64) : OneLineResult (finite x op y z) := by
    unfold Expression.finite
    split
    · exact numbers z
    · exact (((numbers x).append (token op)).append (numbers y)).append (by decide)
  unfold compute
  split
  · exact finite _
  · exact finite _
  · exact finite _
  · split
    · have start : Text.OneLine "division by zero: ".toList := by decide
      exact ((start.append (numbers x)).append (by decide)).append (numbers y)
    · exact finite _

theorem oneLine_asNumber {v : Value} {fault : Fault} (hv : v.OneLine)
    (h : asNumber v = .error fault) : fault.message.OneLine := by
  unfold asNumber at h
  split at h
  · cases h
  · cases h
    have start : Text.OneLine "cannot use ".toList := by decide
    exact (((start.append v.oneLine_kind).append (by decide)).append hv).append (by decide)

theorem oneLine_operate {op : Operator} {left right : Value} (hl : left.OneLine)
    (hr : right.OneLine) : OneLineResult (operate op left right) := by
  unfold operate
  split
  · exact oneLine_compute ..
  · exact hl.append hr
  · cases first : asNumber left with
    | error fault => exact oneLine_asNumber hl first
    | ok x =>
      cases second : asNumber right with
      | error fault => exact oneLine_asNumber hr second
      | ok y => exact oneLine_compute ..

/-- What is computed from a line and values without line feeds has none, and neither has what is
said if there is no value. -/
theorem oneLine_evaluateIn (hb : b.All Value.OneLine) (room : Nat) {e : Text} (whole : e.OneLine) :
    OneLineResult (evaluateIn b room e) := by
  induction room generalizing e with
  | zero =>
    unfold evaluateIn
    split
    · next ha => exact oneLine_atom? hb whole ha
    · split
      · exact whole
      · show Fault.tooManyOperators.message.OneLine
        decide
  | succ room ih =>
    unfold evaluateIn
    split
    · next ha => exact oneLine_atom? hb whole ha
    · split
      · exact whole
      · next op left right cut =>
        show OneLineResult (evaluateIn b room left >>= fun l =>
          evaluateIn b room right >>= fun r => operate op l r)
        obtain ⟨inLeft, inRight⟩ := infix_of_cut? cut
        have hl := ih (whole.part inLeft)
        have hr := ih (whole.part inRight)
        cases first : evaluateIn b room left with
        | error fault =>
          rw [first] at hl
          exact hl
        | ok l =>
          rw [ok_bind]
          cases second : evaluateIn b room right with
          | error fault =>
            rw [second] at hr
            exact hr
          | ok r =>
            rw [first] at hl
            rw [second] at hr
            exact oneLine_operate hl hr

theorem oneLine_of_evaluate {e : Text} {v : Value} (hb : b.All Value.OneLine) (whole : e.OneLine)
    (h : evaluate b e = .ok v) : v.OneLine := by
  have result := oneLine_evaluateIn hb maxExpressionDepth whole
  rw [evaluate] at h
  rw [h] at result
  exact result

theorem oneLine_message {e : Text} {fault : Fault} (hb : b.All Value.OneLine) (whole : e.OneLine)
    (h : evaluate b e = .error fault) : fault.message.OneLine := by
  have result := oneLine_evaluateIn hb maxExpressionDepth whole
  rw [evaluate] at h
  rw [h] at result
  exact result

end Expression

namespace Statement

open BlockCanvas.Action Expression

variable {config : Config} {b b' : Bindings} {line : Text}

/-! ### Lines -/

/-- What a part of a run may do that has this many lines. -/
structure Tidy (config : Config) (lines : Nat) (effect : Effect Failure Unit) : Prop where
  bindings : effect.bindings.All Value.OneLine
  printed : config.simulatedInput.OneLine → ∀ shown ∈ effect.printed, shown.OneLine
  error : ∀ failure, effect.result = .error failure → failure.message.OneLine
  count : effect.printed.length ≤ lines * max 2 config.maxLoopIterations

theorem oneLine_of_appended (config : Config) {name : Text} {target item : Value}
    (hn : name.OneLine) (ht : target.OneLine) (hi : item.OneLine) :
    Fault.OneLineResult (Statement.appended config name target item) := by
  have quoted : Text.OneLine ('\'' :: name) := Text.oneLine_cons.2 ⟨by decide, hn⟩
  unfold Statement.appended
  split
  · dsimp only
    split
    · show (Fault.listTooLarge name config.maxListItems).message.OneLine
      exact ((quoted.append (by decide)).append (Text.oneLine_ofNat _)).append (by decide)
    · split
      · show (Fault.listTooDeep name).message.OneLine
        exact ((quoted.append (by decide)).append (Text.oneLine_ofNat _)).append (by decide)
      · exact Value.oneLine_list_concat ht hi
  · show (Fault.notAList name target.kind).message.OneLine
    exact ((quoted.append (by decide)).append target.oneLine_kind).append (by decide)

theorem oneLine_of_cause {rule : Rule} {fault : Fault} (hb : b.All Value.OneLine)
    (whole : line.OneLine) (cause : Cause config b line b' rule fault) :
    fault.message.OneLine := by
  cases cause with
  | expression inside value => exact oneLine_message hb (whole.part inside) value
  | turns shape many =>
    have start : Text.OneLine "range(".toList := by decide
    have number := Text.oneLine_ofNat
    exact ((((((start.append (number _)).append (by decide)).append (number _)).append
      (by decide)).append (number _)).append (by decide)).append (number _)
  | @item name _ _ shape value =>
    have opened := hb.opened Value.oneLine_nil name
    exact oneLine_message opened (whole.part (Shape.infix_of_append? shape).2) value
  | @list name _ target item _ shape bound value grown =>
    have opened := hb.opened Value.oneLine_nil name
    obtain ⟨inName, inItem⟩ := Shape.infix_of_append? shape
    have result := oneLine_of_appended config (whole.part inName) (opened.get? bound)
      (oneLine_of_evaluate opened (whole.part inItem) value)
    rw [grown] at result
    exact result

theorem oneLine_failure {rule : Rule} {fault : Fault} (whole : line.OneLine)
    (message : fault.message.OneLine) : (Failure.mk line rule fault).message.OneLine := by
  have mark : Text.OneLine errorMark := by decide
  have name : rule.name.OneLine := by
    cases rule
    all_goals decide
  exact ((((mark.append name).append (by decide)).append whole).append (by decide)).append message

theorem oneLine_of_change (hb : b.All Value.OneLine) (whole : line.OneLine)
    (change : Change config b line b') : b'.All Value.OneLine := by
  refine change.all hb ?_ (fun _ _ => Value.oneLine_number _) Value.oneLine_nil ?_
  · intro b e v hb inside value
    exact oneLine_of_evaluate hb (whole.part inside) value
  · intro name list item longer target last grown
    obtain ⟨items, rfl, rfl⟩ := appended_eq_ok grown
    exact Value.oneLine_list_concat target last

/-- A line that prints one line or none. -/
theorem tidy_of_ok {shown : List Text} (table : b'.All Value.OneLine) (few : shown.length ≤ 1)
    (lines : ∀ s ∈ shown, s.OneLine) : Tidy config 1 ⟨b', shown, .ok ()⟩ where
  bindings := table
  printed _ := lines
  error := by
    rintro _ ⟨⟩
  count := by
    show shown.length ≤ _
    omega

theorem tidy_of_outcome {effect : Effect Failure Unit} (hb : b.All Value.OneLine)
    (whole : line.OneLine) (outcome : Outcome config b line effect) : Tidy config 1 effect := by
  have single {s : Text} (h : s.OneLine) : ∀ t ∈ [s], t.OneLine := List.forall_mem_singleton.2 h
  have none : ∀ t ∈ ([] : List Text), t.OneLine := List.forall_mem_nil _
  have table := oneLine_of_change hb whole outcome.change
  cases outcome with
  | assigned => exact tidy_of_ok table (Nat.zero_le _) none
  | printed inner value =>
    have hv := oneLine_of_evaluate hb (whole.part (Text.infix_of_between? inner)) value
    exact tidy_of_ok table le_rfl (single hv)
  | prompted shape =>
    have mark : Text.OneLine echoMark := by decide
    have prompt := mark.append (Shape.oneLine_of_prompt? shape whole)
    refine ⟨table, fun answer => List.forall_mem_cons.2 ⟨prompt, single answer⟩, ?_, ?_⟩
    · rintro _ ⟨⟩
    · show 2 ≤ _
      omega
  | @looped r shape few =>
    refine ⟨table, fun _ => ?_, ?_, ?_⟩
    · intro shown member
      obtain ⟨i, -, rfl⟩ := List.mem_map.1 member
      exact ((Shape.oneLine_of_range? shape).append (by decide)).append (Text.oneLine_ofNat i)
    · rintro _ ⟨⟩
    · rw [List.length_map, List.length_range']
      omega
  | told inner truth =>
    have start : Text.OneLine "Condition \"".toList := by decide
    have condition := whole.part (Text.infix_of_between? inner)
    exact tidy_of_ok table le_rfl (single ((start.append condition).append (by decide)))
  | untold => exact tidy_of_ok table (Nat.zero_le _) none
  | @defined name params shape =>
    have start : Text.OneLine "Function \"".toList := by decide
    obtain ⟨hn, hp⟩ := Shape.oneLine_of_function? shape whole
    have last : Text.OneLine (if params = [] then "none".toList else params) := by
      split
      · decide
      · exact hp
    exact tidy_of_ok table le_rfl (single (((start.append hn).append (by decide)).append last))
  | @appended name _ _ item _ shape bound value grows =>
    obtain ⟨inName, inItem⟩ := Shape.infix_of_append? shape
    have opened := hb.opened Value.oneLine_nil name
    have hi := oneLine_of_evaluate opened (whole.part inItem) value
    have start : Text.OneLine "Added ".toList := by decide
    exact tidy_of_ok table le_rfl
      (single (((start.append hi).append (by decide)).append (whole.part inName)))
  | @listed inner vs shape values =>
    have texts : ∀ part ∈ vs.map Value.display, '\n' ∉ part := by
      intro part member
      obtain ⟨v, inList, rfl⟩ := List.mem_map.1 member
      obtain ⟨e, piece, value⟩ := exists_of_mem_of_mapM_eq_ok values inList
      have inside := ((Text.trim_infix e).trans (Text.infix_of_mem_splitChar piece)).trans
        (Text.infix_of_between? shape)
      exact oneLine_of_evaluate hb (whole.part inside) value
    have start : Text.OneLine "List created: [".toList := by decide
    exact tidy_of_ok table le_rfl
      (single ((start.append (Text.notMem_intercalate (by decide) texts)).append (by decide)))
  | echoed =>
    have mark : Text.OneLine echoMark := by decide
    exact tidy_of_ok table le_rfl (single (mark.append whole))
  | faulted cause =>
    refine ⟨table, fun _ => none, ?_, Nat.zero_le _⟩
    rintro _ ⟨⟩
    exact oneLine_failure whole (oneLine_of_cause hb whole cause)

/-! ### Runs -/

/-- Line by line: what the lines before have left is a table without line feeds again. -/
theorem tidy_perform (config : Config) {lines : List Text} (hb : b.All Value.OneLine)
    (whole : ∀ line ∈ lines, line.OneLine) :
    Tidy config lines.length ((Program.perform config lines).on b) := by
  induction lines generalizing b with
  | nil => exact ⟨hb, fun _ => List.forall_mem_nil _, by rintro _ ⟨⟩, Nat.zero_le _⟩
  | cons line lines ih =>
    obtain ⟨first, later⟩ := List.forall_mem_cons.1 whole
    have step := tidy_of_outcome hb first (outcome_step config b line)
    have total : (line :: lines).length * max 2 config.maxLoopIterations =
        1 * max 2 config.maxLoopIterations + lines.length * max 2 config.maxLoopIterations := by
      rw [List.length_cons, Nat.add_mul, Nat.add_comm]
    have count := step.count
    rw [Program.perform, forEach_cons]
    cases result : ((Statement.step config line).on b).result with
    | error failure =>
      rw [on_bind_of_error result]
      refine ⟨step.bindings, step.printed, ?_, by rw [total]; exact Nat.le_add_right_of_le count⟩
      rintro _ ⟨⟩
      exact step.error failure result
    | ok _ =>
      rw [on_bind_of_ok result]
      have rest := ih step.bindings later
      refine ⟨rest.bindings, fun answer => ?_, rest.error, ?_⟩
      · intro shown member
        rcases List.mem_append.1 member with here | after
        · exact step.printed answer shown here
        · exact rest.printed answer shown after
      · rw [List.length_append, total]
        exact Nat.add_le_add count rest.count

end Statement

namespace Program

/-- If the answer to prompts is one line then so is each line of the output; the error of a run is
one line in any case.  For each line of the program there are at most two lines of output, or one
for each turn that a loop may have. -/
theorem oneLine_output (config : Config) (source : Text) :
    ('\n' ∉ config.simulatedInput → ∀ line ∈ (execute config source).output, '\n' ∉ line) ∧
    (∀ e ∈ (execute config source).error, '\n' ∉ e) ∧
    (execute config source).output.length ≤
      (programLines source).length * max 2 config.maxLoopIterations := by
  have tidy := Statement.tidy_perform config Bindings.all_empty
    fun line (member : line ∈ programLines source) => (isProgramLine_of_mem member).feed
  refine ⟨tidy.printed, ?_, tidy.count⟩
  intro e shown
  obtain ⟨failure, result, rfl⟩ := result_of_error_eq_some shown
  exact tidy.error failure result

/-- A loop of three turns, a prompt and a division by zero under a limit of three turns. -/
theorem oneLine_output_loop :
    '\n' ∉ (Config.mk 3 1 "yes".toList).simulatedInput ∧
    (∀ line ∈ (execute ⟨3, 1, "yes".toList⟩
      "for i in range(3):\ninput(\"ok?\")\nx = i / 0".toList).output, '\n' ∉ line) ∧
    (execute ⟨3, 1, "yes".toList⟩
      "for i in range(3):\ninput(\"ok?\")\nx = i / 0".toList).output.length = 5 := by
  have answer : '\n' ∉ (Config.mk 3 1 "yes".toList).simulatedInput := by decide
  exact ⟨answer, (oneLine_output _ _).1 answer, by decide +kernel⟩

end Program
end BlockCanvas
