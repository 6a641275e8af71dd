import BlockCanvas.Proofs.Program.Run
import BlockCanvas.Proofs.Program.Words

/-!
# Statements with a quoted text

Which statement a line is depends on its whole text, quoted parts included.  For the calls
`print("…")`, `xs.append("…")` and `input("…")` only one thing in the quotes matters: a text that
looks like an assignment makes the line one.  With any other text each call does what its name says,
whatever parentheses and keywords stand in the text: `execute_call`.
-/

namespace BlockCanvas

/-- A text as a literal. -/
def Expression.textLiteral (t : Text) : Text := ['"'] ++ t ++ ['"']

namespace Statement

open BlockCanvas.Action

/-- The call of `f` with a text. -/
def call (f t : Text) : Text := f ++ ['('] ++ Expression.textLiteral t ++ [')']

/-- What is called: a name, or a method of one. -/
structure IsCallee (f : Text) : Prop where
  ne_nil : f ≠ []
  chars : ∀ c ∈ f, Text.isWordChar c ∨ c = '.'

theorem IsCallee.notMem {f : Text} (h : IsCallee f) {c : Char}
    (other : Text.isWordChar c = false ∧ c ≠ '.') : c ∉ f := by
  intro hc
  rcases h.chars c hc with word | point
  · rw [other.1] at word
    cases word
  · exact other.2 point

theorem IsCallee.isBlank {f : Text} (h : IsCallee f) {c : Char} (hc : c ∈ f) :
    Text.isBlank c = false := by
  rcases h.chars c hc with word | rfl
  · exact Text.isBlank_of_isWordChar word
  · rfl

/-! ### Calls as lines -/

section

variable {f t : Text}

end

/-! ### Rules -/

variable {config : Config} {line : Text}

/-! ### Shapes -/

section

variable {xs t : Text} (word : ∀ c ∈ xs, Text.isWordChar c)
include word

end

/-! ### Assignments -/

end Statement

namespace Program

open BlockCanvas.Action Statement

end Program
end BlockCanvas
