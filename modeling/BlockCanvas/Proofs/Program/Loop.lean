import BlockCanvas.Proofs.Number.Whole
import BlockCanvas.Proofs.Program.Run
import BlockCanvas.Proofs.Program.Words

/-!
# Loops and their bodies

The header of a loop prints all of its numbers, and the body is the next line, which is run once and
sees the last number: `execute_header_print`.  The header prints the numbers as they are, but the
variable holds a 64-bit number, so past `2 ^ 53` the body may print another one.
-/

namespace BlockCanvas

open Text (IsWord IsDigits)

namespace Statement

/-- What a loop over the numbers from `first` to below `stop` prints. -/
def trace (v : Text) (first stop : Nat) : List Text :=
  (List.range' first (stop - first)).map fun i => v ++ " = ".toList ++ Text.ofNat i

/-- A loop over at least one number ends with the number before its stop. -/
theorem trace_eq_concat {first stop : Nat} (some : first < stop) (v : Text) :
    trace v first stop = trace v first (stop - 1) ++
      [v ++ " = ".toList ++ Text.ofNat (stop - 1)] := by
  have count : stop - first = stop - 1 - first + 1 := by omega
  have last : first + (stop - 1 - first) = stop - 1 := by omega
  rw [trace, count, List.range'_1_concat, List.map_append, last]
  rfl

section

variable {v start stop : Text} (word : IsWord v) (first : IsDigits start) (last : IsDigits stop)
include word first last

theorem programLines_header_append (rest : Text) :
    Program.programLines (header v start stop ++ '\n' :: rest) =
      header v start stop :: Program.programLines rest := by
  have one : '\n' ∉ header v start stop := notMem_header word first last (by decide) (by decide)
  have trimmed : Text.trim (header v start stop) = header v start stop := by
    apply Text.trim_eq_self
    · rintro c ⟨⟩
      decide
    · have ends : header v start stop = "for ".toList ++ v ++ " in range(".toList ++ start ++
          ", ".toList ++ stop ++ "):".toList := by
        simp [header]
      rw [ends, List.getLast?_append_of_ne_nil _ (by decide)]
      rintro c ⟨⟩
      decide
  rw [Program.programLines_append, Program.programLines_of_line one trimmed rfl]
  rfl

variable (low : Text.decimalValue start < 2 ^ 63) (high : Text.decimalValue stop < 2 ^ 63)
  {config : Config}
include low high

theorem step_header (b : Bindings)
    (few : Text.decimalValue stop - Text.decimalValue start ≤ config.maxLoopIterations) :
    (step config (header v start stop)).on b =
      ⟨if Text.decimalValue start < Text.decimalValue stop then
          b.bind v (.number (.ofNat (Text.decimalValue stop - 1))) else b,
        trace v (Text.decimalValue start) (Text.decimalValue stop), .ok ()⟩ := by
  have turns : (handle config (header v start stop) .forRange).on b = _ :=
    on_forRange (range?_header word first last low high) few
  rw [step, stepWith_of_takenBy (takenBy_header word first last low high config b), turns]
  rfl

theorem step_header_of_lt (b : Bindings)
    (many : config.maxLoopIterations < Text.decimalValue stop - Text.decimalValue start) :
    (step config (header v start stop)).on b =
      ⟨b, [], .error ⟨header v start stop, .forRange,
        .rangeTooLong (Text.decimalValue start) (Text.decimalValue stop)
          (Text.decimalValue stop - Text.decimalValue start) config.maxLoopIterations⟩⟩ := by
  have fault : (handle config (header v start stop) .forRange).on b = _ :=
    on_forRange_of_lt (range?_header word first last low high) many
  rw [step, stepWith_of_takenBy (takenBy_header word first last low high config b), fault]

end

end Statement

namespace Program

open BlockCanvas.Action Statement

/-- A loop whose body prints its variable comes to an end: the header prints the numbers from the
first to the last, and the body the 64-bit number nearest to the last.  Up to `2 ^ 53` this is the
last number itself. -/
theorem execute_header_print (config : Config) (source v start stop : Text) (word : IsWord v)
    (plain : Binary64.literal? v = none) (first : IsDigits start) (last : IsDigits stop)
    (numbers : Text.decimalValue start < Text.decimalValue stop)
    (high : Text.decimalValue stop < 2 ^ 63)
    (few : Text.decimalValue stop - Text.decimalValue start ≤ config.maxLoopIterations)
    (lines : programLines source = [header v start stop, "print(".toList ++ v ++ [')']]) :
    execute config source =
        ⟨trace v (Text.decimalValue start) (Text.decimalValue stop - 1) ++
          [v ++ " = ".toList ++ Text.ofNat (Text.decimalValue stop - 1),
            (Binary64.ofNat (Text.decimalValue stop - 1)).display], none⟩ ∧
      (Text.decimalValue stop - 1 ≤ 2 ^ 53 →
        (Binary64.ofNat (Text.decimalValue stop - 1)).display =
          Text.ofNat (Text.decimalValue stop - 1)) := by
  refine ⟨?_, Binary64.display_ofNat⟩
  have looped := step_header word first last (Nat.lt_trans numbers high) high .empty few
  rw [if_pos numbers] at looped
  have printed := step_print_word word plain config
    (Bindings.empty.bind v (.number (.ofNat (Text.decimalValue stop - 1))))
  rw [Bindings.get?_bind_self] at printed
  rw [execute, run, lines, perform_cons_of_ok looped, perform_singleton, printed,
    trace_eq_concat numbers, Effect.report, List.append_assoc]
  rfl

/-- The last number that is sure to be shown as it is. -/
theorem execute_header_print_two_pow :
    IsWord "i".toList ∧ Binary64.literal? "i".toList = none ∧ IsDigits "9007199254740991".toList ∧
      IsDigits "9007199254740993".toList ∧
      Text.decimalValue "9007199254740991".toList < Text.decimalValue "9007199254740993".toList ∧
      Text.decimalValue "9007199254740993".toList < 2 ^ 63 ∧
      Text.decimalValue "9007199254740993".toList - Text.decimalValue "9007199254740991".toList ≤
        ({} : Config).maxLoopIterations ∧
      programLines "for i in range(9007199254740991, 9007199254740993):\n    print(i)".toList =
        [header "i".toList "9007199254740991".toList "9007199254740993".toList,
          "print(".toList ++ "i".toList ++ [')']] ∧
      Text.decimalValue "9007199254740993".toList - 1 ≤ 2 ^ 53 ∧
      execute {} "for i in range(9007199254740991, 9007199254740993):\n    print(i)".toList =
        ⟨["i = 9007199254740991".toList, "i = 9007199254740992".toList,
          "9007199254740992".toList], none⟩ := by
  have word : IsWord "i".toList := by decide
  have plain : Binary64.literal? "i".toList = none := by decide +kernel
  have first : IsDigits "9007199254740991".toList := by decide
  have last : IsDigits "9007199254740993".toList := by decide
  have low : Text.decimalValue "9007199254740991".toList = 9007199254740991 := by decide +kernel
  have high : Text.decimalValue "9007199254740993".toList = 9007199254740993 := by decide +kernel
  have numbers : Text.decimalValue "9007199254740991".toList <
      Text.decimalValue "9007199254740993".toList := by
    rw [low, high]
    decide
  have bound : Text.decimalValue "9007199254740993".toList < 2 ^ 63 := by
    rw [high]
    decide
  have few : Text.decimalValue "9007199254740993".toList -
      Text.decimalValue "9007199254740991".toList ≤ ({} : Config).maxLoopIterations := by
    rw [low, high]
    decide
  have lines : programLines
      "for i in range(9007199254740991, 9007199254740993):\n    print(i)".toList =
        [header "i".toList "9007199254740991".toList "9007199254740993".toList,
          "print(".toList ++ "i".toList ++ [')']] := by decide +kernel
  have exact : Text.decimalValue "9007199254740993".toList - 1 ≤ 2 ^ 53 := by
    rw [high]
    decide
  obtain ⟨run, shown⟩ :=
    execute_header_print {} _ _ _ _ word plain first last numbers bound few lines
  refine ⟨word, plain, first, last, numbers, bound, few, lines, exact, ?_⟩
  rw [run, shown exact, low, high]
  decide +kernel

/-- The header prints the number after `2 ^ 53`, and the body the one before it. -/
theorem not_execute_header_print :
    ¬ ∀ (config : Config) (source v : Text) (first stop : Nat), IsWord v →
      Binary64.literal? v = none → first < stop → stop < 2 ^ 63 →
      stop - first ≤ config.maxLoopIterations →
      programLines source = [header v (Text.ofNat first) (Text.ofNat stop),
        "print(".toList ++ v ++ [')']] →
      (execute config source).error = none ∧
        (execute config source).output.getLast? = some (Text.ofNat (stop - 1)) := by
  intro h
  have word : IsWord "i".toList := by decide
  have last := (h {} "for i in range(9007199254740993, 9007199254740994):\nprint(i)".toList
    "i".toList 9007199254740993 9007199254740994 word (by decide +kernel) (by decide) (by decide)
    (by decide) (by decide +kernel)).2
  have other : execute {} "for i in range(9007199254740993, 9007199254740994):\nprint(i)".toList =
      ⟨["i = 9007199254740993".toList, "9007199254740992".toList], none⟩ := by decide +kernel
  rw [other] at last
  revert last
  decide +kernel

end Program
end BlockCanvas
