import BlockCanvas.Proofs.Number.Display
import BlockCanvas.Proofs.Number.Numeral
import BlockCanvas.Proofs.Number.Shortest

/-!
# The width of displayed numbers

No number takes more than twenty-six characters: `length_display_le`.  It has at most eighteen
digits, and it is shown with an exponent part before the zeros around them get too many.
-/

namespace BlockCanvas

theorem Text.length_ofNat_le {n k : Nat} (pos : 0 < k) (h : n < 10 ^ k) :
    (ofNat n).length ≤ k :=
  (Nat.length_toDigits_le_iff (by decide) pos).2 h

namespace Numeral

theorem length_signText_le (negative : Bool) : (signText negative).length ≤ 1 := by
  cases negative
  all_goals decide

end Numeral

namespace Binary64

/-- A point, zeros or an exponent part add at most eight characters to the digits. -/
theorem length_text_ofDigits_le (negative : Bool) {digits : Text} {lead : Int}
    (few : digits.length ≤ 18) (place : lead.natAbs < 10 ^ 3) :
    (shown.ofDigits negative digits lead).text.length ≤ 26 := by
  have sign := Numeral.length_signText_le negative
  unfold Layout.ofDigits
  split
  case isTrue plain =>
    obtain ⟨least, most⟩ : -6 ≤ lead ∧ lead ≤ 20 := plain
    cases lead with
    | negSucc below =>
      simp only [Numeral.text, List.length_append, List.length_cons, List.length_replicate,
        List.length_nil]
      omega
    | ofNat above =>
      have above : above ≤ 20 := by
        rw [Int.ofNat_eq_natCast] at most
        omega
      dsimp only
      split
      · simp only [Numeral.text, List.length_append, List.length_cons, List.length_take,
          List.length_drop, List.length_replicate, List.length_nil]
        omega
      · rw [if_neg (by decide)]
        simp only [Numeral.text, List.length_append, List.length_take, List.length_replicate,
          List.length_nil]
        omega
  case isFalse =>
    have exponent := Text.length_ofNat_le (by decide) place
    have first : (digits.take 1).length ≤ 1 := List.length_take_le ..
    have rest : (digits.drop 1).length ≤ 17 := by
      rw [List.length_drop]
      omega
    dsimp only
    split
    · simp only [Numeral.text, List.length_append, List.length_cons]
      omega
    · simp only [Numeral.text, List.length_append, List.length_cons, List.length_nil]
      omega

theorem leadingExponent_bounds {x : Binary64} (finite : x.isFinite) (nonzero : ¬ x.isZero) :
    -324 ≤ Decimal.leadingExponent x.units ∧ Decimal.leadingExponent x.units ≤ 308 := by
  obtain ⟨reached, high⟩ :=
    Decimal.leadingExponent_spec_of_lt (units_ne_zero nonzero) (log2_units_lt finite)
  have pos := Decimal.unit_pos_rat
  have least : (10 : ℚ) ^ (-324 : Int) < Decimal.magnitude x.units := by
    have small : unit < 10 ^ 324 * x.units := by
      have : unit < 10 ^ 324 := by decide +kernel
      exact Nat.lt_of_lt_of_le this (Nat.le_mul_of_pos_right _ (Nat.pos_of_ne_zero
        (units_ne_zero nonzero)))
    rw [Decimal.magnitude, lt_div_iff₀ pos, zpow_neg, inv_mul_lt_iff₀ (by positivity)]
    exact_mod_cast small
  have most : Decimal.magnitude x.units < (10 : ℚ) ^ (309 : Int) := by
    have large : x.units < 10 ^ 309 * unit := by
      have : largest.units < 10 ^ 309 * unit := by decide +kernel
      exact Nat.lt_of_le_of_lt (units_le_largest finite) this
    rw [Decimal.magnitude, div_lt_iff₀ pos]
    exact_mod_cast large
  have base : (1 : ℚ) < 10 := by norm_num
  have above := (zpow_lt_zpow_iff_right₀ base).1 (lt_trans least high)
  have below := (zpow_lt_zpow_iff_right₀ base).1 (lt_of_le_of_lt reached most)
  omega

/-- No number is shown by more than twenty-six characters. -/
theorem length_display_le (x : Binary64) : x.display.length ≤ 26 := by
  unfold display
  split
  · decide
  · next number =>
    split
    · have sign := Numeral.length_signText_le x.negative
      have word : "Infinity".toList.length = 8 := by decide
      rw [List.length_append]
      omega
    · next infinite =>
      split
      · decide
      · next nonzero =>
        have finite := isFinite_of_isInfinite_eq_false (eq_false_of_ne_true number)
          (eq_false_of_ne_true infinite)
        rw [Layout.numeral, if_neg nonzero]
        dsimp only
        obtain ⟨digits, exponent, value⟩ := Decimal.shortest_bounds shown.tie finite nonzero
        have fewer := Decimal.digits_normalize_le (Decimal.shortest shown.tie x)
        have later := Decimal.exponent_le_normalize (Decimal.shortest shown.tie x)
        have some := Layout.digits_shortest_ne_zero finite shown.tie nonzero
        rw [← Decimal.value_normalize] at value
        generalize (Decimal.shortest shown.tie x).normalize = d at *
        have first := (zpow_le_zpow_iff_right₀ (by norm_num : (1 : ℚ) < 10)).1
          (le_trans (Decimal.ten_zpow_le_value some) value)
        have length : (Text.ofNat d.digits).length ≤ 18 :=
          Text.length_ofNat_le (by decide) (by omega)
        have same : (Text.ofNat d.digits).length = Decimal.length d.digits := rfl
        obtain ⟨least, most⟩ := leadingExponent_bounds finite nonzero
        exact length_text_ofDigits_le _ length (by omega)

end Binary64
end BlockCanvas
