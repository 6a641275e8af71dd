import BlockCanvas.Program.Value
import BlockCanvas.Proofs.Number.Display

/-!
# Values as numbers

The number that a value counts as is the one that its text is read as, however deep its lists nest,
as long as it holds no NaN: `toNumber?_rel_literal?_display`.  The text of two items or more has a
comma, and so is no number; the text of one item is that of the item.
-/

namespace BlockCanvas
namespace Value

mutual

/-- The numbers inside a value. -/
def numbers : Value → List Binary64
  | .text _ => []
  | .number x => [x]
  | .list items => numbersOf items

/-- The numbers inside all of these values. -/
def numbersOf : List Value → List Binary64
  | [] => []
  | v :: rest => numbers v ++ numbersOf rest

end

/-- No number inside the value is a NaN. -/
def NoNaN (v : Value) : Prop := ∀ x ∈ v.numbers, x.isNaN = false

theorem noNaN_item {v : Value} (h : (list [v]).NoNaN) : v.NoNaN := by
  intro x hx
  exact h x (List.mem_append_left _ hx)

end Value

namespace Binary64

theorem eq_self {x : Binary64} (h : x.isNaN = false) : x.eq x = true := by
  simp [eq, h]

/-- All zeros are equal. -/
theorem eq_zero {x : Binary64} (h : x.isZero) (negative : Bool) : x.eq (zero negative) = true := by
  obtain ⟨sign, code, limit⟩ := x
  obtain rfl : code = 0 := eq_of_beq h
  cases sign <;> cases negative <;> rfl

/-- Where another character than those of numbers stands, there is no number. -/
theorem literal?_of_mem {c : Char} {s : Text} (h : c ∈ s) (visible : Text.isBlank c = false)
    (letter : c.isAlphanum = false) (mark : c ∉ ['+', '-', '.']) : literal? s = none :=
  trimmedLiteral?_of_mem (Text.mem_trim h visible) letter mark

/-- The number that is read back is equal to the one that was shown, and it is the same one unless
it is a zero. -/
theorem exists_literal?_display {x : Binary64} (number : x.isNaN = false) :
    ∃ y, literal? x.display = some y ∧ x.eq y ∧ (x.isZero = false → y = x) := by
  rw [literal?_display number]
  split
  · next null =>
    refine ⟨zero false, rfl, eq_zero null false, fun other => ?_⟩
    rw [null] at other
    cases other
  · exact ⟨x, rfl, eq_self number, fun _ => rfl⟩

end Binary64

namespace Value

theorem comma_mem_display (v w : Value) (rest : List Value) :
    ',' ∈ (list (v :: w :: rest)).display := by
  simp [display, displayItems]

/-- Shown and read again a value is the number that it counts as, or no number if it counts as
none. -/
theorem rel_literal?_display : ∀ v : Value, v.NoNaN →
    Option.Rel (fun x y => x.eq y = true) v.toNumber? (Binary64.literal? v.display)
  | text s, _ => by
    show Option.Rel _ (Binary64.literal? s) (Binary64.literal? s)
    cases read : Binary64.literal? s with
    | none => exact .none
    | some x => exact .some (Binary64.eq_self (Binary64.isNaN_of_literal? read))
  | number x, h => by
    obtain ⟨y, read, same, -⟩ := Binary64.exists_literal?_display (h x List.mem_cons_self)
    show Option.Rel _ (some x) (Binary64.literal? x.display)
    rw [read]
    exact .some same
  | list [], _ => .some (by decide)
  | list [v], h => rel_literal?_display v (noNaN_item h)
  | list (v :: w :: rest), _ => by
    rw [Binary64.literal?_of_mem (comma_mem_display v w rest) (by decide) (by decide) (by decide)]
    exact .none

/-- A value without NaNs counts as the number that its text is read as.  So each finite or infinite
number is read back from its text, bit for bit if it is no zero. -/
theorem toNumber?_rel_literal?_display :
    (∀ v : Value, v.NoNaN →
      Option.Rel (fun x y => x.eq y = true) v.toNumber? (Binary64.literal? v.display)) ∧
    ∀ x : Binary64, x.isFinite ∨ x.isInfinite → ∃ y, Binary64.literal? x.display = some y ∧
      x.eq y = true ∧ (x.isZero = false → y = x) := by
  refine ⟨rel_literal?_display, fun x kind => ?_⟩
  have limit : x.code ≤ Binary64.infinityCode := by
    rcases kind with finite | infinite
    · exact Nat.le_of_lt (Binary64.code_lt_infinityCode finite)
    · exact Nat.le_of_eq (eq_of_beq infinite)
  exact Binary64.exists_literal?_display (decide_eq_false (Nat.not_lt.2 limit))

/-- The least number below zero inside two lists, and the infinity below all numbers. -/
theorem toNumber?_rel_literal?_display_least :
    (list [list [number ⟨true, 1, by decide⟩]]).NoNaN ∧
    Option.Rel (fun x y : Binary64 => x.eq y = true) (some ⟨true, 1, by decide⟩)
      (Binary64.literal? "-5e-324".toList) ∧
    (Binary64.infinity true).isInfinite ∧ ∃ y, Binary64.literal? "-Infinity".toList = some y ∧
      (Binary64.infinity true).eq y = true := by
  have number : (list [list [number ⟨true, 1, by decide⟩]]).NoNaN := by
    unfold NoNaN
    decide
  have shown : (list [list [.number ⟨true, 1, by decide⟩]]).display = "-5e-324".toList := by
    decide +kernel
  have read := toNumber?_rel_literal?_display.1 _ number
  rw [shown] at read
  obtain ⟨y, back, same, -⟩ :=
    toNumber?_rel_literal?_display.2 (Binary64.infinity true) (.inr (by decide))
  exact ⟨number, read, by decide, y, back, same⟩

end Value
end BlockCanvas
