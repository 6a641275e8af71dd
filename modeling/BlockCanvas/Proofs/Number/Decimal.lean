import Mathlib.Algebra.Order.Field.Basic
import Mathlib.Algebra.Order.Field.Power
import Mathlib.Data.Rat.Cast.Order
import Mathlib.Tactic.FieldSimp
import Mathlib.Tactic.NormNum
import Mathlib.Tactic.Positivity
import Mathlib.Tactic.Ring
import BlockCanvas.Number.Decimal
import BlockCanvas.Proofs.Number.Rounding

/-!
# Decimals

A decimal is read as the 64-bit number nearest to its value (`nearest_eq`), so it can be written in
any way that keeps the value, and the decimal that is written for a number reads back as this
number (`nearest_shortest`).
-/

namespace BlockCanvas
namespace Decimal

/-! ### Values -/

/-- The exact value of a decimal. -/
def value (d : Decimal) : ℚ := d.digits * 10 ^ d.exponent

/-- A decimal as a quotient of whole numbers. -/
def fraction (d : Decimal) : Nat × Nat :=
  match d.exponent with
  | .ofNat e => (d.digits * 10 ^ e, 1)
  | .negSucc e => (d.digits, 10 ^ (e + 1))

theorem fraction_pos (d : Decimal) : 0 < d.fraction.2 := by
  unfold fraction
  split
  · exact Nat.one_pos
  · exact Nat.pow_pos (by decide)

theorem value_eq_div (d : Decimal) : d.value = d.fraction.1 / d.fraction.2 := by
  obtain ⟨q, e⟩ := d
  cases e with
  | ofNat e => simp [value, fraction]
  | negSucc e => simp [value, fraction, zpow_negSucc, div_eq_mul_inv]

theorem lt_ten_pow_length (n : Nat) : n < 10 ^ length n :=
  (Nat.length_toDigits_le_iff (by decide) Nat.length_toDigits_pos).1 (Nat.le_refl _)

theorem ten_pow_le_of_ne_zero {n : Nat} (h : n ≠ 0) : 10 ^ (length n - 1) ≤ n := by
  by_contra less
  have pos : 0 < length n := Nat.length_toDigits_pos
  by_cases one : length n = 1
  · rw [one] at less
    omega
  · have : length n ≤ length n - 1 :=
      (Nat.length_toDigits_le_iff (by decide) (by omega)).2 (by omega)
    omega

/-- The first digit of a decimal is worth no more than its value. -/
theorem ten_zpow_le_value {d : Decimal} (h : d.digits ≠ 0) :
    (10 : ℚ) ^ (d.exponent + length d.digits - 1) ≤ d.value := by
  have pos : 0 < length d.digits := Nat.length_toDigits_pos
  have first : (10 : ℚ) ^ (length d.digits - 1) ≤ d.digits := by
    exact_mod_cast ten_pow_le_of_ne_zero h
  have place : d.exponent + length d.digits - 1 = (length d.digits - 1 : Nat) + d.exponent := by
    omega
  rw [place, zpow_add₀ (by decide), zpow_natCast, value]
  exact mul_le_mul_of_nonneg_right first (by positivity)

theorem value_lt_ten_zpow (d : Decimal) : d.value < (10 : ℚ) ^ (d.exponent + length d.digits) := by
  have all : (d.digits : ℚ) < 10 ^ length d.digits := by
    exact_mod_cast lt_ten_pow_length d.digits
  rw [Int.add_comm, zpow_add₀ (by decide), zpow_natCast, value]
  exact mul_lt_mul_of_pos_right all (by positivity)

/-! ### Reading -/

theorem nearest_zero (negative : Bool) (den : Nat) :
    Binary64.nearest negative 0 den = .zero negative := by
  have round : ∀ n, Binary64.roundEven 0 n = 0 := by
    intro n
    cases n <;> simp [Binary64.roundEven]
  have code : Binary64.nearestCode 0 den = 0 := by
    simp only [Binary64.nearestCode, round, Nat.zero_div, Nat.log2_zero, Nat.zero_sub, Nat.zero_mul]
  simp only [Binary64.nearest, Binary64.zero, code, Nat.zero_min]

theorem nearestCode_mul_unit_mono {a b c d : Nat} (hb : 0 < b) (hd : 0 < d)
    (h : a * d ≤ c * b) :
    Binary64.nearestCode (a * Binary64.unit) b ≤ Binary64.nearestCode (c * Binary64.unit) d := by
  refine Binary64.nearestCode_mono hb hd ?_
  rw [Nat.mul_right_comm, Nat.mul_right_comm c]
  exact Nat.mul_le_mul_right _ h

theorem nearest_of_huge (negative : Bool) {num den : Nat} (hd : 0 < den)
    (h : 10 ^ 310 * den ≤ num) :
    Binary64.nearest negative (num * Binary64.unit) den = .infinity negative := by
  have past : Binary64.infinityCode ≤ Binary64.nearestCode (10 ^ 310 * Binary64.unit) 1 := by
    decide +kernel
  have grows := nearestCode_mul_unit_mono Nat.one_pos hd (by rwa [Nat.mul_one num])
  simp only [Binary64.nearest, Binary64.infinity, Nat.min_eq_right (Nat.le_trans past grows)]

theorem nearest_of_tiny (negative : Bool) {num den : Nat} (hd : 0 < den)
    (h : num * 10 ^ 330 ≤ den) :
    Binary64.nearest negative (num * Binary64.unit) den = .zero negative := by
  have none : Binary64.nearestCode (1 * Binary64.unit) (10 ^ 330) = 0 := by decide +kernel
  have pos : 0 < 10 ^ 330 := by decide +kernel
  have grows := nearestCode_mul_unit_mono hd pos (by rwa [Nat.one_mul den])
  have code := Nat.eq_zero_of_le_zero (Nat.le_trans grows (Nat.le_of_eq none))
  simp only [Binary64.nearest, Binary64.zero, code, Nat.zero_min]

theorem fraction_eq_zero {d : Decimal} (h : d.digits = 0) : d.fraction.1 = 0 := by
  unfold fraction
  split <;> simp [h]

/-- A decimal is read as the number nearest to its value: the shortcuts for values out of range
change nothing. -/
theorem nearest_eq (negative : Bool) (d : Decimal) :
    d.nearest negative = .nearest negative (d.fraction.1 * Binary64.unit) d.fraction.2 := by
  have pos := d.fraction_pos
  have posQ : (0 : ℚ) < d.fraction.2 := by exact_mod_cast pos
  simp only [nearest]
  split
  · next zero => rw [fraction_eq_zero zero, Nat.zero_mul, nearest_zero]
  · next nonzero =>
    split
    · next huge =>
      refine (nearest_of_huge negative pos ?_).symm
      have low : (10 : ℚ) ^ (310 : Int) ≤ d.fraction.1 / d.fraction.2 := by
        rw [← value_eq_div]
        refine le_trans ?_ (ten_zpow_le_value nonzero)
        exact zpow_le_zpow_right₀ (by norm_num) (by omega)
      rw [le_div_iff₀ posQ] at low
      exact_mod_cast low
    split
    · next tiny =>
      refine (nearest_of_tiny negative pos ?_).symm
      have high : (d.fraction.1 / d.fraction.2 : ℚ) ≤ 10 ^ (-330 : Int) := by
        rw [← value_eq_div]
        refine le_trans (le_of_lt (value_lt_ten_zpow d)) ?_
        exact zpow_le_zpow_right₀ (by norm_num) (by omega)
      rw [zpow_neg, ← one_div, div_le_div_iff₀ posQ (by positivity), one_mul] at high
      exact_mod_cast high
    · cases place : d.exponent with
      | ofNat e => simp only [fraction, place, Nat.pow_eq]
      | negSucc e => simp only [fraction, place, Nat.pow_eq]

/-- A decimal of the value of a number is read as this number. -/
theorem nearest_of_value_eq {x : Binary64} (h : x.isFinite) {d : Decimal}
    (e : d.value * Binary64.unit = x.units) : d.nearest x.negative = x := by
  rw [nearest_eq]
  refine Binary64.nearest_of_eq h d.fraction_pos ?_
  have posQ : (d.fraction.2 : ℚ) ≠ 0 := by exact_mod_cast Nat.ne_of_gt d.fraction_pos
  rw [value_eq_div, div_mul_eq_mul_div, div_eq_iff posQ] at e
  exact_mod_cast e

/-- Decimals of one value are read as one number. -/
theorem nearest_congr (negative : Bool) {d d' : Decimal} (e : d.value = d'.value) :
    d.nearest negative = d'.nearest negative := by
  have pos : (d.fraction.2 : ℚ) ≠ 0 := by exact_mod_cast Nat.ne_of_gt d.fraction_pos
  have pos' : (d'.fraction.2 : ℚ) ≠ 0 := by exact_mod_cast Nat.ne_of_gt d'.fraction_pos
  rw [value_eq_div, value_eq_div, div_eq_div_iff pos pos'] at e
  have cross : d.fraction.1 * d'.fraction.2 = d'.fraction.1 * d.fraction.2 := by
    exact_mod_cast e
  rw [nearest_eq, nearest_eq, Binary64.nearest_congr negative d.fraction_pos d'.fraction_pos]
  rw [Nat.mul_right_comm, cross, Nat.mul_right_comm]

/-- What is read as something below a finite number is itself below it. -/
theorem value_lt_of_nearest {negative : Bool} {d : Decimal} {x : Binary64} (hx : x.isFinite)
    (h : (d.nearest negative).code < x.code) : d.value * Binary64.unit < x.units := by
  rw [nearest_eq] at h
  have posQ : (0 : ℚ) < d.fraction.2 := by exact_mod_cast d.fraction_pos
  rw [value_eq_div, div_mul_eq_mul_div, div_lt_iff₀ posQ]
  exact_mod_cast Binary64.lt_of_nearest_code_lt d.fraction_pos hx h

/-! ### Writing -/

theorem value_mul_two_pow (units n : Nat) :
    (value ⟨units * 5 ^ n, -n⟩) * (2 ^ n : Nat) = units := by
  have ten : (10 : ℚ) ^ (-n : Int) = (5 ^ n)⁻¹ * (2 ^ n)⁻¹ := by
    rw [zpow_neg, zpow_natCast, ← mul_inv, ← mul_pow]
    norm_num
  rw [value, ten]
  push_cast
  field_simp

theorem value_exact (units : Nat) : (exact units).value * Binary64.unit = units := by
  have parts : exact units = ⟨units * Nat.pow 5 1074, -(1074 : Nat)⟩ := rfl
  have step := Binary64.unit_eq
  -- a power with this exponent is too large to be computed
  generalize 1074 = n at parts step
  rw [parts, step]
  exact value_mul_two_pow units n

/-- The decimal that is written for a number reads back as this number. -/
theorem nearest_shortest (tie : Tie) {x : Binary64} (h : x.isFinite) :
    (shortest tie x).nearest x.negative = x := by
  simp only [shortest]
  generalize found : List.findSome? _ _ = r
  cases r with
  | none => exact nearest_of_value_eq h (value_exact x.units)
  | some d =>
    obtain ⟨n, -, hn⟩ := List.exists_of_findSome?_eq_some found
    simpa using List.find?_some hn

theorem exists_strip (fuel : Nat) (d : Decimal) : ∃ zeros : Nat,
    d.digits = (strip fuel d).digits * 10 ^ zeros ∧
      (strip fuel d).exponent = d.exponent + zeros := by
  induction fuel generalizing d with
  | zero => exact ⟨0, by simp [strip]⟩
  | succ fuel ih =>
    rw [strip]
    split
    · next h =>
      rcases ih ⟨d.digits / 10, d.exponent + 1⟩ with ⟨zeros, digits, exponent⟩
      refine ⟨zeros + 1, ?_, ?_⟩
      · rw [Nat.pow_succ, ← Nat.mul_assoc, ← digits,
          Nat.div_mul_cancel (Nat.dvd_of_mod_eq_zero h.2)]
      · rw [exponent]
        push_cast
        ring
    · exact ⟨0, by simp⟩

theorem exists_normalize (d : Decimal) : ∃ zeros : Nat,
    d.digits = d.normalize.digits * 10 ^ zeros ∧ d.normalize.exponent = d.exponent + zeros :=
  exists_strip ..

theorem value_normalize (d : Decimal) : d.normalize.value = d.value := by
  obtain ⟨zeros, digits, exponent⟩ := exists_normalize d
  rw [value, value, digits, exponent, zpow_add₀ (by decide), zpow_natCast]
  push_cast
  ring

theorem digits_normalize_le (d : Decimal) : d.normalize.digits ≤ d.digits := by
  obtain ⟨zeros, digits, -⟩ := exists_normalize d
  rw [digits]
  exact Nat.le_mul_of_pos_right _ (Nat.pow_pos (by decide))

theorem exponent_le_normalize (d : Decimal) : d.exponent ≤ d.normalize.exponent := by
  obtain ⟨zeros, -, exponent⟩ := exists_normalize d
  omega

/-! ### Neighbours -/

/-- The number in the middle between the largest power of two and the one after it. -/
def upperHalf : Binary64 := ⟨false, 2046 * 2 ^ 52 + 2 ^ 51, by decide⟩

/-- The finite numbers from `upperHalf` on. -/
structure Topmost (x : Binary64) : Prop where
  finite : x.isFinite
  high : upperHalf.code ≤ x.code

theorem reaches_ofNat (units e : Nat) :
    reaches units (.ofNat e) = decide (Binary64.unit * 10 ^ e ≤ units) := rfl

theorem Topmost.leadingExponent {x : Binary64} (h : Topmost x) :
    leadingExponent x.units = 308 := by
  have first : upperHalf.units.log2 = 2097 := by decide +kernel
  have last : Binary64.largest.units.log2 = 2097 := by decide +kernel
  have length : x.units.log2 = 2097 :=
    Nat.le_antisymm (last ▸ Binary64.log2_mono (Binary64.units_le_largest h.finite))
      (first ▸ Binary64.log2_mono (Binary64.units_mono h.high))
  have reached : reaches x.units 308 := by
    have : Binary64.unit * 10 ^ 308 ≤ upperHalf.units := by decide +kernel
    exact (reaches_ofNat x.units 308).trans
      (decide_eq_true (Nat.le_trans this (Binary64.units_mono h.high)))
  have guess : ((2097 : Nat) - 1074 : Int) * 1233 / 4096 = 307 := by decide
  rw [Decimal.leadingExponent, length, guess]
  exact if_pos reached

/-- The neighbours of a magnitude are the multiples below and above it, and the first one is at most
half a place away. -/
theorem neighbours_cases (tie : Tie) {units num den : Nat} {e : Int}
    (hq : quotient units e = (num, den)) :
    (neighbours tie units e = [⟨num / den, e⟩, ⟨num / den + 1, e⟩] ∧ 2 * (num % den) ≤ den) ∨
    (neighbours tie units e = [⟨num / den + 1, e⟩, ⟨num / den, e⟩] ∧ den ≤ 2 * (num % den)) := by
  simp only [neighbours, hq]
  generalize lower : (decide (2 * (num % den) < den) || _) = b
  cases b with
  | true =>
    refine .inl ⟨rfl, ?_⟩
    simp only [Bool.or_eq_true, Bool.and_eq_true, decide_eq_true_eq, beq_iff_eq] at lower
    omega
  | false =>
    refine .inr ⟨rfl, ?_⟩
    simp only [Bool.or_eq_false_iff, decide_eq_false_iff_not] at lower
    omega

theorem neighbours_head (tie : Tie) {units num den : Nat} {e : Int}
    (hq : quotient units e = (num, den)) (pos : 0 < den) :
    ∃ q rest, neighbours tie units e = ⟨q, e⟩ :: rest ∧
      2 * num ≤ 2 * (q * den) + den ∧ 2 * (q * den) ≤ 2 * num + den := by
  have split := Nat.div_add_mod num den
  have rest := Nat.mod_lt num pos
  rw [Nat.mul_comm] at split
  obtain ⟨lower, half⟩ | ⟨upper, half⟩ := neighbours_cases tie hq
  · exact ⟨num / den, _, lower, by omega⟩
  · refine ⟨num / den + 1, _, upper, ?_⟩
    rw [Nat.add_mul]
    omega

end Decimal
end BlockCanvas
