import BlockCanvas.Proofs.Number.Grammar
import BlockCanvas.Proofs.Text.Line

/-!
# Displayed numbers are read back

What is shown for a number is one of its literals, so it is read as the number again, with the
sign of a zero lost: `literal?_display`.  Nothing is read as a NaN: `isNaN_of_literal?`.
-/

namespace BlockCanvas

/-! ### Texts of numerals -/

namespace Numeral

/-- The text that is written for a numeral is one of its texts. -/
theorem spelled_text {n : Numeral} (strict : n.Strict) : n.Spelled n.text := by
  obtain ⟨negative, whole, fraction, exponent⟩ := n
  have signed : SignSpelled negative (signText negative) := by
    cases negative
    · exact .bare
    · exact .minus
  have marked (mark : Bool × Text) (all : Text.IsDigits mark.2) : ExponentSpelled (some mark)
      ('e' :: ([if mark.1 then '-' else '+'] ++ mark.2)) := by
    obtain ⟨below, digits⟩ := mark
    cases below
    · exact .marked (.inl rfl) .plus all
    · exact .marked (.inl rfl) .minus all
  cases fraction with
  | none =>
    cases exponent with
    | none => exact ⟨_, _, _, by simp [text], signed, .whole strict.whole, .none⟩
    | some mark =>
      exact ⟨_, _, _, by simp [text], signed, .whole strict.whole,
        marked mark (strict.exponent mark rfl)⟩
  | some digits =>
    have places := PlacesSpelled.pointed strict.whole (strict.fraction digits rfl).isDigit
    cases exponent with
    | none => exact ⟨_, _, _, by simp [text], signed, places, .none⟩
    | some mark =>
      exact ⟨_, _, _, by simp [text], signed, places, marked mark (strict.exponent mark rfl)⟩

/-- No blank stands in a numeral. -/
theorem isBlank_of_mem_spelled {n : Numeral} {s : Text} (h : n.Spelled s) {c : Char} (hc : c ∈ s) :
    Text.isBlank c = false := by
  have read := scan?_eq_some_iff.2 h
  by_cases letter : c.isAlphanum
  · exact Text.isBlank_of_isWordChar (by rw [Text.isWordChar, letter, Bool.true_or])
  · by_cases mark : c ∈ ['+', '-', '.']
    · simp only [List.mem_cons, List.not_mem_nil, or_false] at mark
      rcases mark with rfl | rfl | rfl
      all_goals rfl
    · rw [scan?_of_mem hc (eq_false_of_ne_true letter) mark] at read
      cases read

theorem trim_of_spelled {n : Numeral} {s : Text} (h : n.Spelled s) : Text.trim s = s :=
  Text.trim_eq_self (fun _ hc => isBlank_of_mem_spelled h (List.mem_of_mem_head? hc))
    fun _ hc => isBlank_of_mem_spelled h (List.mem_of_mem_getLast? hc)

end Numeral

namespace Binary64

/-! ### Numbers are no NaN -/

theorem isNaN_nearest (negative : Bool) (num den : Nat) :
    (nearest negative num den).isNaN = false := by
  have limit : (nearest negative num den).code ≤ infinityCode := Nat.min_le_right ..
  rw [isNaN, decide_eq_false_iff_not]
  exact Nat.not_lt.2 limit

theorem isNaN_of_isFinite {x : Binary64} (h : x.isFinite) : x.isNaN = false := by
  rw [isNaN, decide_eq_false_iff_not]
  exact Nat.not_lt.2 (Nat.le_of_lt (code_lt_infinityCode h))

theorem isFinite_of_isInfinite_eq_false {x : Binary64} (number : x.isNaN = false)
    (infinite : x.isInfinite = false) : x.isFinite := by
  have notAbove : ¬ infinityCode < x.code := of_decide_eq_false number
  have notEqual : x.code ≠ infinityCode := by
    intro e
    rw [isInfinite, e, beq_self_eq_true] at infinite
    cases infinite
  exact decide_eq_true (by omega)

theorem isNaN_of_isLiteral {s : Text} {x : Binary64} (h : IsLiteral s x) : x.isNaN = false := by
  cases h with
  | blank => decide
  | infinity words => decide
  | negativeInfinity => decide
  | @decimal n _ h =>
    rw [Numeral.nearest, Decimal.nearest_eq]
    exact isNaN_nearest ..
  | whole => exact isNaN_nearest ..

/-- No text is read as a NaN. -/
theorem isNaN_of_literal? {s : Text} {x : Binary64} (h : literal? s = some x) :
    x.isNaN = false := by
  rcases literal?_eq_some_iff.1 h with literal | ⟨_, _, _, n, -, -, -, rfl⟩
  · exact isNaN_of_isLiteral literal
  · exact isNaN_nearest ..

/-! ### Reading back -/

theorem literal?_of_spelled {n : Numeral} {s : Text} (h : n.Spelled s) :
    literal? s = some n.nearest := by
  rw [literal?_eq_some_iff, Numeral.trim_of_spelled h]
  exact .inl (.decimal h)

/-- A number is read back from the text that is shown for it; both zeros are shown as `0`. -/
theorem literal?_display {x : Binary64} (number : x.isNaN = false) :
    literal? x.display = some (if x.isZero then zero false else x) := by
  rw [display, if_neg (by rw [number]; exact Bool.false_ne_true)]
  split
  · next infinite =>
    obtain ⟨negative, code, limit⟩ := x
    obtain rfl : code = infinityCode := eq_of_beq infinite
    cases negative
    all_goals rfl
  · next infinite =>
    split
    · decide +kernel
    · next nonzero =>
      have finite := isFinite_of_isInfinite_eq_false number (eq_false_of_ne_true infinite)
      rw [literal?_of_spelled (Numeral.spelled_text (shown.strict_numeral finite)),
        shown.nearest_numeral finite]

/-! ### What is shown -/

/-- No blank stands in what is shown for a number. -/
theorem isBlank_of_mem_display {x : Binary64} {c : Char} (h : c ∈ x.display) :
    Text.isBlank c = false := by
  have visible {s : Text} (all : s.all fun d => Text.isBlank d == false) (h : c ∈ s) :
      Text.isBlank c = false :=
    eq_of_beq (List.all_eq_true.1 all c h)
  unfold display at h
  split at h
  · exact visible (by decide) h
  · next number =>
    split at h
    · generalize x.negative = sign at h
      cases sign
      all_goals exact visible (by decide) h
    · next infinite =>
      split at h
      · exact visible (by decide) h
      · have finite := isFinite_of_isInfinite_eq_false (eq_false_of_ne_true number)
          (eq_false_of_ne_true infinite)
        exact Numeral.isBlank_of_mem_spelled
          (Numeral.spelled_text (shown.strict_numeral finite)) h

end Binary64
end BlockCanvas
