import Mathlib.Data.List.Induction
import BlockCanvas.Proofs.Program.QuotedText

/-!
# The answer to prompts

The answer that every prompt gets is printed and goes nowhere else.  Runs that differ in it alone
have the same bindings, the same error and as many lines of output, and these lines differ only
where the input rule printed the answer: `execute_of_other_answer`.
-/

namespace BlockCanvas

/-- The configuration with another answer to prompts. -/
def Config.answering (c : Config) (answer : Text) : Config := { c with simulatedInput := answer }

namespace Statement

open BlockCanvas.Action

variable {c : Config} {answer line : Text} {b : Bindings} {rule : Rule} {rules : List Rule}

/-! ### Lines -/

theorem exists_prompt_of_takenBy (taken : TakenBy c b line Rule.all .input) :
    ∃ prompt, Shape.prompt? line = some prompt := by
  obtain ⟨-, -, -, -, last⟩ := taken
  cases found : Shape.prompt? line with
  | some prompt => exact ⟨prompt, rfl⟩
  | none =>
    refine absurd (fun _ => ?_) last
    show ((input c line).on b).result = _
    rw [input, found]
    rfl

/-- A line that the input rule takes prints its prompt and the answer. -/
theorem on_step_of_prompt {prompt : Text} (taken : TakenBy c b line Rule.all .input)
    (found : Shape.prompt? line = some prompt) :
    (step c line).on b = ⟨b, [echoMark ++ prompt, c.simulatedInput], .ok ()⟩ := by
  have handled : (handle c line .input).on b =
      ⟨b, [echoMark ++ prompt, c.simulatedInput], .ok .taken⟩ := by
    show (input c line).on b = _
    rw [input, found]
    rfl
  rw [step, stepWith_of_takenBy taken, handled]

theorem handle_answering (other : rule ≠ .input) :
    handle (c.answering answer) line rule = handle c line rule := by
  cases rule with
  | input => exact absurd rfl other
  | assignment | print | forRange | ifHeader | defHeader | append | listLiteral | echo => rfl

theorem result_handle_answering :
    ((handle (c.answering answer) line rule).on b).result = ((handle c line rule).on b).result := by
  by_cases other : rule = .input
  · subst other
    show ((input _ line).on b).result = ((input _ line).on b).result
    unfold input
    cases Shape.prompt? line <;> rfl
  · rw [handle_answering other]

/-- Which rule takes a line does not depend on the answer. -/
theorem takenBy_answering :
    TakenBy (c.answering answer) b line rules rule ↔ TakenBy c b line rules rule := by
  simp only [TakenBy, Declines, result_handle_answering]

/-- Only a line that the input rule takes does something else under another answer. -/
theorem step_answering : (step (c.answering answer) line).on b = (step c line).on b ∨
    TakenBy c b line Rule.all .input := by
  obtain ⟨rule, taken⟩ := exists_takenBy c b line
  by_cases other : rule = .input
  · exact .inr (other ▸ taken)
  · left
    rw [step, step, stepWith_of_takenBy (takenBy_answering.2 taken), stepWith_of_takenBy taken,
      handle_answering other]

end Statement

namespace Program

open BlockCanvas.Action Statement

variable {c : Config} {answer prompt : Text} {b : Bindings} {lines : List Text} {k : Nat}

/-! ### Places of answers -/

/-- The answer to a prompt is line `k` of what these lines print: the lines before a line that the
input rule takes come to an end, and that line prints its prompt right before line `k`. -/
def AnswersAt (c : Config) (b : Bindings) (lines : List Text) (k : Nat) (prompt : Text) : Prop :=
  ∃ before line after, lines = before ++ line :: after ∧
    ((perform c before).on b).result = .ok () ∧
    TakenBy c ((perform c before).on b).bindings line Rule.all .input ∧
    Shape.prompt? line = some prompt ∧ k = ((perform c before).on b).printed.length + 1

theorem AnswersAt.append (h : AnswersAt c b lines k prompt) (more : List Text) :
    AnswersAt c b (lines ++ more) k prompt := by
  obtain ⟨before, line, after, rfl, rest⟩ := h
  exact ⟨before, line, after ++ more, by simp, rest⟩

theorem AnswersAt.printed (h : AnswersAt c b lines k prompt) :
    ((perform c lines).on b).printed[k - 1]? = some (echoMark ++ prompt) ∧
      ((perform c lines).on b).printed[k]? = some c.simulatedInput := by
  obtain ⟨before, line, after, rfl, done, taken, found, rfl⟩ := h
  have shown := on_step_of_prompt taken found
  rw [perform_append, on_bind_of_ok done, perform_cons_of_ok shown]
  simp

/-! ### Runs under another answer -/

/-- Two effects are the same but for the printed lines at certain places. -/
structure AlikeExcept (places : Nat → Prop) (x y : Effect Failure Unit) : Prop where
  bindings : y.bindings = x.bindings
  result : y.result = x.result
  length : y.printed.length = x.printed.length
  differ : ∀ k, y.printed[k]? ≠ x.printed[k]? → places k

theorem getElem?_append_ne {α : Type} {first later first' later' : List α}
    (length : first'.length = first.length)
    (differ : (first' ++ later')[k]? ≠ (first ++ later)[k]?) :
    first'[k]? ≠ first[k]? ∨
      first.length ≤ k ∧ later'[k - first.length]? ≠ later[k - first.length]? := by
  by_cases hk : k < first.length
  · left
    rwa [List.getElem?_append_left hk, List.getElem?_append_left (length ▸ hk)] at differ
  · right
    have hk : first.length ≤ k := Nat.le_of_not_lt hk
    rw [List.getElem?_append_right hk, List.getElem?_append_right (length ▸ hk), length] at differ
    exact ⟨hk, differ⟩

/-- Lines do the same under another answer, but for the places where they print it.  The induction
is on the last line, which meets the bindings that the lines before it left in both runs. -/
theorem alikeExcept_perform (c : Config) (answer : Text) (b : Bindings) (lines : List Text) :
    AlikeExcept (fun k => ∃ prompt, AnswersAt c b lines k prompt)
      ((perform c lines).on b) ((perform (c.answering answer) lines).on b) := by
  induction lines using List.reverseRecOn with
  | nil => exact ⟨rfl, rfl, rfl, fun k differ => absurd rfl differ⟩
  | append_singleton lines line ih =>
    have earlier {k : Nat} (differ : ((perform (c.answering answer) lines).on b).printed[k]? ≠
        ((perform c lines).on b).printed[k]?) :
        ∃ prompt, AnswersAt c b (lines ++ [line]) k prompt := by
      obtain ⟨prompt, place⟩ := ih.differ k differ
      exact ⟨prompt, place.append _⟩
    cases r : ((perform c lines).on b).result with
    | error failure =>
      rw [perform_append, perform_append, on_bind_of_error r,
        on_bind_of_error (ih.result.trans r)]
      exact ⟨ih.bindings, rfl, ih.length, fun k differ => earlier differ⟩
    | ok _ =>
      rw [perform_append, perform_append, on_bind_of_ok r, on_bind_of_ok (ih.result.trans r),
        perform_singleton, perform_singleton, ih.bindings]
      rcases step_answering with same | taken
      · rw [same]
        refine ⟨rfl, rfl, by simp [ih.length], fun k differ => ?_⟩
        rcases getElem?_append_ne ih.length differ with before | ⟨-, here⟩
        · exact earlier before
        · exact absurd rfl here
      · obtain ⟨prompt, found⟩ := exists_prompt_of_takenBy taken
        rw [on_step_of_prompt taken found, on_step_of_prompt (takenBy_answering.2 taken) found]
        refine ⟨rfl, rfl, by simp [ih.length], fun k differ => ?_⟩
        rcases getElem?_append_ne ih.length differ with before | ⟨hk, here⟩
        · exact earlier before
        -- of the two lines that the prompt prints, the second one is the answer
        · have second : k - ((perform c lines).on b).printed.length = 1 := by
            rcases e : k - ((perform c lines).on b).printed.length with _ | _ | j
            · rw [e] at here
              exact absurd rfl here
            · rfl
            · rw [e] at here
              exact absurd rfl here
          exact ⟨prompt, lines, line, [], rfl, r, taken, found, by omega⟩

theorem AnswersAt.answering (h : AnswersAt c b lines k prompt) (answer : Text) :
    AnswersAt (c.answering answer) b lines k prompt := by
  obtain ⟨before, line, after, rfl, done, taken, found, rfl⟩ := h
  have alike := alikeExcept_perform c answer b before
  refine ⟨before, line, after, rfl, alike.result.trans done, ?_, found, by rw [alike.length]⟩
  rw [alike.bindings]
  exact takenBy_answering.2 taken

/-- Runs under configurations that differ only in the answer to prompts leave the same bindings and
show the same error and as many lines.  Directly after the prompt of a line that the input rule
takes each of them shows its answer; at all other places they show the same. -/
theorem execute_of_other_answer (c d : Config)
    (iterations : d.maxLoopIterations = c.maxLoopIterations)
    (items : d.maxListItems = c.maxListItems) (source : Text) :
    (execute d source).error = (execute c source).error ∧
      (execute d source).output.length = (execute c source).output.length ∧
      (run d source).bindings = (run c source).bindings ∧
      ∀ k, (∀ prompt, AnswersAt c .empty (programLines source) k prompt →
          (execute c source).output[k - 1]? = some (">>> ".toList ++ prompt) ∧
            (execute d source).output[k - 1]? = some (">>> ".toList ++ prompt) ∧
            (execute c source).output[k]? = some c.simulatedInput ∧
            (execute d source).output[k]? = some d.simulatedInput) ∧
        ((∀ prompt, ¬ AnswersAt c .empty (programLines source) k prompt) →
          (execute d source).output[k]? = (execute c source).output[k]?) := by
  obtain ⟨answer, rfl⟩ : ∃ answer, d = c.answering answer := by
    refine ⟨d.simulatedInput, ?_⟩
    rw [Config.answering, ← iterations, ← items]
  have alike := alikeExcept_perform c answer .empty (programLines source)
  refine ⟨error_report_congr alike.result, alike.length, alike.bindings, fun k => ⟨?_, ?_⟩⟩
  · intro prompt place
    exact ⟨place.printed.1, (place.answering answer).printed.1, place.printed.2,
      (place.answering answer).printed.2⟩
  · intro other
    by_contra differ
    obtain ⟨prompt, place⟩ := alike.differ k differ
    exact other prompt place

/-- An assignment of a call to `input` is no prompt, and nothing is an answer at the start of the
output. -/
theorem execute_of_other_answer_who :
    AnswersAt {} .empty (programLines "x = input(\"a\")\ninput(\"Who?\")\nprint(x)".toList) 1
        "Who?".toList ∧
      (∀ prompt, ¬ AnswersAt {} .empty
        (programLines "x = input(\"a\")\ninput(\"Who?\")\nprint(x)".toList) 0 prompt) ∧
      (execute { simulatedInput := "me".toList }
        "x = input(\"a\")\ninput(\"Who?\")\nprint(x)".toList).error =
        (execute {} "x = input(\"a\")\ninput(\"Who?\")\nprint(x)".toList).error ∧
      (execute { simulatedInput := "me".toList }
        "x = input(\"a\")\ninput(\"Who?\")\nprint(x)".toList).output[1]? = some "me".toList ∧
      (execute { simulatedInput := "me".toList }
        "x = input(\"a\")\ninput(\"Who?\")\nprint(x)".toList).output[0]? =
        (execute {} "x = input(\"a\")\ninput(\"Who?\")\nprint(x)".toList).output[0]? := by
  have lines : programLines "x = input(\"a\")\ninput(\"Who?\")\nprint(x)".toList =
      ["x = input(\"a\")".toList] ++ "input(\"Who?\")".toList :: ["print(x)".toList] := by
    decide +kernel
  have prompt : Shape.prompt? "input(\"Who?\")".toList = some "Who?".toList := by decide +kernel
  have taken : TakenBy {} ((perform {} ["x = input(\"a\")".toList]).on .empty).bindings
      "input(\"Who?\")".toList Rule.all .input := by
    refine ⟨[.assignment, .print], _, rfl, ?_, ?_⟩
    · exact List.forall_mem_cons.2 ⟨declines_of_not_accepts (by decide +kernel),
        List.forall_mem_singleton.2 (declines_of_not_accepts (by decide +kernel))⟩
    · intro declines
      have passed : ((input {} "input(\"Who?\")".toList).on _).result = _ :=
        declines (by decide +kernel)
      rw [input, prompt] at passed
      cases passed
  have place : AnswersAt {} .empty
      (programLines "x = input(\"a\")\ninput(\"Who?\")\nprint(x)".toList) 1 "Who?".toList := by
    rw [lines]
    exact ⟨_, _, _, rfl, rfl, taken, prompt, rfl⟩
  have start : ∀ prompt, ¬ AnswersAt {} .empty
      (programLines "x = input(\"a\")\ninput(\"Who?\")\nprint(x)".toList) 0 prompt := by
    rintro _ ⟨_, _, _, _, _, _, _, k⟩
    cases k
  have runs := execute_of_other_answer {} { simulatedInput := "me".toList } rfl rfl
    "x = input(\"a\")\ninput(\"Who?\")\nprint(x)".toList
  exact ⟨place, start, runs.1, ((runs.2.2.2 1).1 _ place).2.2.2, (runs.2.2.2 0).2 start⟩

end Program
end BlockCanvas
