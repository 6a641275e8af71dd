import BlockCanvas.Proofs.Number.Decimal

/-!
# Exact whole numbers

A whole number of 53 binary places, with zeros after them, is a 64-bit number itself:
`units_ofNat`.  So a quotient of such a number and a small power of ten is rounded once only, to the
number nearest to a decimal: `ofNat_div_ofNat_ten_pow`.
-/

namespace BlockCanvas
namespace Binary64

theorem neg_nearest (num den : Nat) : -nearest false num den = nearest true num den := rfl

/-- There is a number for all places and exponents in range. -/
theorem exists_of_scale {m k : Nat} (low : 2 ^ 52 ≤ m) (high : m < 2 ^ 53) (limit : k < 2046) :
    ∃ x : Binary64, x.negative = false ∧ x.isFinite ∧ x.units = m * 2 ^ k := by
  refine ⟨⟨false, k * 2 ^ 52 + m, by omega⟩, rfl, ?_, ?_⟩
  · refine decide_eq_true ?_
    show k * 2 ^ 52 + m < infinityCode
    have : infinityCode = 2047 * 2 ^ 52 := by decide
    omega
  · have normal : ¬k * 2 ^ 52 + m < 0x10000000000000 := by omega
    have places : 0x10000000000000 + (k * 2 ^ 52 + m) % 0x10000000000000 = m := by omega
    have exponent : (k * 2 ^ 52 + m) / 0x10000000000000 - 1 = k := by omega
    simp only [units, if_neg normal, places, exponent, Nat.shiftLeft_eq]

/-- Whole numbers of 53 binary places are exact, however many zeros follow. -/
theorem units_ofNat {n j : Nat} (h : n < 2 ^ 53) (hj : j ≤ 900) :
    (ofNat (n * 2 ^ j)).isFinite ∧ (ofNat (n * 2 ^ j)).units = n * 2 ^ j * unit := by
  by_cases zero : n = 0
  · rw [zero, Nat.zero_mul, Nat.zero_mul]
    decide +kernel
  · have length : n.log2 ≤ 52 := Nat.le_of_lt_succ ((Nat.log2_lt zero).2 h)
    have pos := Nat.two_pow_pos (52 - n.log2)
    have full : 2 ^ 52 = 2 ^ n.log2 * 2 ^ (52 - n.log2) := by
      rw [← Nat.pow_add, Nat.add_sub_cancel' length]
    have low : 2 ^ 52 ≤ n * 2 ^ (52 - n.log2) := by
      rw [full]
      exact Nat.mul_le_mul_right _ (Nat.log2_self_le zero)
    have high : n * 2 ^ (52 - n.log2) < 2 ^ 53 := by
      rw [Nat.pow_succ, full, Nat.mul_right_comm, ← Nat.pow_succ]
      exact Nat.mul_lt_mul_of_pos_right Nat.lt_log2_self pos
    obtain ⟨x, positive, finite, units⟩ :=
      exists_of_scale (k := 1022 + j + n.log2) low high (by omega)
    have whole : x.units = n * 2 ^ j * unit := by
      rw [units, unit_eq, Nat.mul_assoc, ← Nat.pow_add, Nat.mul_assoc, ← Nat.pow_add]
      congr 2
      omega
    have same : ofNat (n * 2 ^ j) = x := by
      have own : nearest x.negative (n * 2 ^ j * unit) 1 = x :=
        nearest_of_eq finite Nat.one_pos (by rw [whole, Nat.mul_one])
      rwa [positive] at own
    rw [same]
    exact ⟨finite, whole⟩

/-- Up to the twenty-second, powers of ten are exact. -/
theorem units_ofNat_ten_pow {k : Nat} (h : k ≤ 22) :
    (ofNat (10 ^ k)).isFinite ∧ (ofNat (10 ^ k)).units = 10 ^ k * unit := by
  have odd : 5 ^ k < 2 ^ 53 :=
    Nat.lt_of_le_of_lt (Nat.pow_le_pow_right (by decide) h) (by decide)
  have exact := units_ofNat odd (Nat.le_trans h (by decide))
  rwa [← Nat.mul_pow] at exact

/-- An exact whole number divided by an exact power of ten is the number nearest to the decimal. -/
theorem ofNat_div_ofNat_ten_pow {n j k : Nat} (h : n < 2 ^ 53) (hj : j ≤ 900) (hk : k < 22) :
    ofNat (n * 2 ^ j) / ofNat (10 ^ (k + 1)) =
      (⟨n * 2 ^ j, .negSucc k⟩ : Decimal).nearest false := by
  obtain ⟨finite, units⟩ := units_ofNat h hj
  obtain ⟨finite', units'⟩ := units_ofNat_ten_pow (k := k + 1) (by omega)
  have pos : 0 < 10 ^ (k + 1) := Nat.pow_pos (by decide)
  have nonzero : 0 < (ofNat (10 ^ (k + 1))).code :=
    Nat.lt_of_lt_of_le (by decide +kernel) (code_ofNat_mono pos)
  rw [div_eq_nearest finite finite' nonzero, units, units', Decimal.nearest_eq]
  refine nearest_congr false (Nat.mul_pos pos unit_pos) pos ?_
  show n * 2 ^ j * unit * unit * 10 ^ (k + 1) = n * 2 ^ j * unit * (10 ^ (k + 1) * unit)
  ring

end Binary64
end BlockCanvas
