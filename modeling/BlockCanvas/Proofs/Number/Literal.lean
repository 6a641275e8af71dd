import BlockCanvas.Number.Display

/-!
# What stands in a number

A numeral is made of letters, digits, signs and points.  A text in which any other character stands
between its blanks is not a number: `trimmedLiteral?_of_mem`.
-/

namespace BlockCanvas

variable {c : Char} {s : Text}

namespace Numeral

theorem mem_takeSign (h : c ∈ s) (mark : c ∉ ['+', '-', '.']) : c ∈ (takeSign s).2 := by
  unfold takeSign
  split
  · exact List.mem_of_ne_of_mem (by grind) h
  · exact List.mem_of_ne_of_mem (by grind) h
  · exact h

theorem mem_takeDigits (h : c ∈ s) (digit : c.isDigit = false) : c ∈ (Text.takeDigits s).2 := by
  rw [← List.takeWhile_append_dropWhile (p := Char.isDigit) (l := s)] at h
  rcases List.mem_append.1 h with taken | left
  · have isDigit := List.all_eq_true.1 List.all_takeWhile c taken
    rw [digit] at isDigit
    cases isDigit
  · exact left

theorem mem_takeFraction (h : c ∈ s) (digit : c.isDigit = false) (mark : c ∉ ['+', '-', '.']) :
    c ∈ (takeFraction s).2 := by
  unfold takeFraction
  split
  · exact mem_takeDigits (List.mem_of_ne_of_mem (by grind) h) digit
  · exact h

theorem isDigit_of_not_isAlphanum (letter : c.isAlphanum = false) : c.isDigit = false := by
  rw [Char.isAlphanum, Bool.or_eq_false_iff] at letter
  exact letter.2

theorem exponent?_of_mem (h : c ∈ s) (letter : c.isAlphanum = false)
    (mark : c ∉ ['+', '-', '.']) : exponent? s = none := by
  unfold exponent?
  split
  · cases h
  · next d s =>
    split
    case isFalse => rfl
    case isTrue e =>
      have here : c ≠ d := by
        rintro rfl
        rcases e with rfl | rfl <;> cases letter
      have later := mem_takeSign (List.mem_of_ne_of_mem here h) mark
      refine if_neg ?_
      rintro ⟨-, digits⟩
      have isDigit := List.all_eq_true.1 digits c later
      rw [isDigit_of_not_isAlphanum letter] at isDigit
      cases isDigit

theorem scan?_of_mem (h : c ∈ s) (letter : c.isAlphanum = false) (mark : c ∉ ['+', '-', '.']) :
    scan? s = none := by
  have digit := isDigit_of_not_isAlphanum letter
  have left := mem_takeFraction (mem_takeDigits (mem_takeSign h mark) digit) digit mark
  simp only [scan?, exponent?_of_mem left letter mark, Option.map_none, ite_self]

end Numeral

namespace Text

theorem digitValue?_of_not_isAlphanum (letter : c.isAlphanum = false) : digitValue? c = none := by
  change ((c.isUpper || c.isLower) || c.isDigit) = false at letter
  simp only [Bool.or_eq_false_iff] at letter
  simp [digitValue?, letter]

theorem valueIn?_of_mem (radix : Nat) (h : c ∈ s) (letter : c.isAlphanum = false) :
    valueIn? radix s = none := by
  unfold valueIn?
  generalize 0 = n
  induction s generalizing n with
  | nil => cases h
  | cons d s ih =>
    rw [List.foldlM_cons]
    rcases List.mem_cons.1 h with rfl | later
    · rw [digitValue?_of_not_isAlphanum letter]
      rfl
    · cases digitValue? d with
      | none => rfl
      | some value =>
        show ((if value < radix then some (n * radix + value) else none).bind fun n => _) = none
        split
        · exact ih later _
        · rfl

end Text

namespace Binary64

theorem radixLiteral?_of_mem (radix : Nat) (h : c ∈ s) (letter : c.isAlphanum = false)
    (mark : c ∉ ['+', '-', '.']) : radixLiteral? radix s = none := by
  unfold radixLiteral?
  dsimp only
  rw [Text.valueIn?_of_mem radix _ letter, ite_self]
  split
  · exact List.mem_of_ne_of_mem (by grind) h
  · exact h

theorem mem_of_radixOf? {a b : Char} {radix : Nat} (h : radixOf? a b = some radix) :
    a = '0' ∧ b ∈ ['x', 'X', 'o', 'O', 'b', 'B'] := by
  unfold radixOf? at h
  grind

theorem trimmedLiteral?_of_mem (h : c ∈ s) (letter : c.isAlphanum = false)
    (mark : c ∉ ['+', '-', '.']) : trimmedLiteral? s = none := by
  have word {t : Text} (ht : t.all fun d => d.isAlphanum || ['+', '-', '.'].contains d) :
      s ≠ t := by
    rintro rfl
    rcases Bool.or_eq_true_iff.1 (List.all_eq_true.1 ht c h) with l | m
    · rw [letter] at l
      cases l
    · exact mark (List.contains_iff_mem.1 m)
  have plain : s ≠ "Infinity".toList := word (by decide)
  have plus : s ≠ "+Infinity".toList := word (by decide)
  have minus : s ≠ "-Infinity".toList := word (by decide)
  unfold trimmedLiteral?
  rw [if_neg (List.ne_nil_of_mem h), if_neg (not_or.2 ⟨plain, plus⟩), if_neg minus]
  split
  · next a b rest =>
    split
    · next radix marker =>
      obtain ⟨rfl, hb⟩ := mem_of_radixOf? marker
      have markers : ∀ d ∈ '0' :: ['x', 'X', 'o', 'O', 'b', 'B'], c ≠ d := by
        rintro d hd rfl
        have alphanum := List.all_eq_true.1 (show List.all _ Char.isAlphanum by decide) c hd
        rw [letter] at alphanum
        cases alphanum
      have later := List.mem_of_ne_of_mem (markers '0' List.mem_cons_self) h
      have left := List.mem_of_ne_of_mem (markers b (List.mem_cons_of_mem _ hb)) later
      exact radixLiteral?_of_mem radix left letter mark
    · rw [Numeral.scan?_of_mem h letter mark, Option.map_none]
  · rw [Numeral.scan?_of_mem h letter mark, Option.map_none]

end Binary64
end BlockCanvas
