import Mathlib.Algebra.Group.Nat.Defs
import BlockCanvas.Number.Binary64

/-!
# Rounding

`nearestCode num den` depends on the quotient `num / den` alone and grows with it
(`nearestCode_mono`), and it is the code of a number at the units of that number
(`nearestCode_units`).  So whatever lies between two numbers is rounded to something between them.

A finite number is `m * 2 ^ k` units and has the code `k * 2 ^ 52 + m` (`exists_scale`).
-/

namespace BlockCanvas
namespace Binary64

/-! ### Whole numbers -/

theorem div_le_roundEven (num den : Nat) : num / den ≤ roundEven num den := by
  simp only [roundEven]
  split <;> omega

theorem roundEven_le_succ (num den : Nat) : roundEven num den ≤ num / den + 1 := by
  simp only [roundEven]
  split <;> omega

/-- A quotient less than half a place from a whole number is rounded to it. -/
theorem roundEven_of_near {num den m : Nat} (above : 2 * num < 2 * (m * den) + den)
    (below : 2 * (m * den) < 2 * num + den) : roundEven num den = m := by
  have hd : 0 < den := by omega
  have split := Nat.div_add_mod num den
  rw [Nat.mul_comm] at split
  simp only [roundEven]
  by_cases low : m * den ≤ num
  · have whole : num / den = m := by
      refine Nat.div_eq_of_lt_le low ?_
      rw [Nat.succ_mul]
      omega
    rw [whole] at split ⊢
    have : 2 * (num % den) < den := by omega
    simp [this]
  · have pos : m ≠ 0 := by
      rintro rfl
      simp at low
    obtain ⟨n, rfl⟩ : ∃ n, m = n + 1 := ⟨m - 1, by omega⟩
    rw [Nat.succ_mul n den] at low above below
    have whole : num / den = n := by
      refine Nat.div_eq_of_lt_le (by omega) ?_
      rw [Nat.succ_mul]
      omega
    rw [whole] at split ⊢
    have up : ¬2 * (num % den) < den := by omega
    have notTie : 2 * (num % den) ≠ den := by omega
    simp [up, notTie]

theorem roundEven_of_dvd {den : Nat} (hd : 0 < den) (m : Nat) :
    roundEven (m * den) den = m := by
  apply roundEven_of_near <;> omega

theorem div_le_div_of_cross {a b c d : Nat} (hb : 0 < b) (hd : 0 < d) (h : a * d ≤ c * b) :
    a / b ≤ c / d := by
  rw [Nat.le_div_iff_mul_le hd]
  refine Nat.le_of_mul_le_mul_right ?_ hb
  calc a / b * d * b = a / b * b * d := Nat.mul_right_comm ..
    _ ≤ a * d := Nat.mul_le_mul_right d (Nat.div_mul_le_self a b)
    _ ≤ c * b := h

/-- Rounding grows with the quotient. -/
theorem roundEven_mono {a b c d : Nat} (hb : 0 < b) (hd : 0 < d) (h : a * d ≤ c * b) :
    roundEven a b ≤ roundEven c d := by
  have split := Nat.div_add_mod a b
  have split' := Nat.div_add_mod c d
  obtain less | same := Nat.lt_or_eq_of_le (div_le_div_of_cross hb hd h)
  · calc roundEven a b ≤ a / b + 1 := roundEven_le_succ a b
      _ ≤ c / d := less
      _ ≤ roundEven c d := div_le_roundEven c d
  · have rests : a % b * d ≤ c % d * b := by
      rw [← split, ← split', same, Nat.add_mul, Nat.add_mul] at h
      have : b * (c / d) * d = d * (c / d) * b := by
        rw [Nat.mul_comm b, Nat.mul_comm d, Nat.mul_right_comm]
      omega
    simp only [roundEven, same]
    split
    · split <;> omega
    · next up =>
      split
      · next down =>
        -- the larger rest is at most half a place, so the smaller one is no more than that
        exfalso
        simp only [Bool.or_eq_true, Bool.and_eq_true, decide_eq_true_eq, beq_iff_eq] at up down
        have half : 2 * (c % d) ≤ d := by omega
        have low : 2 * (a % b) ≤ b := by
          refine Nat.le_of_mul_le_mul_right ?_ hd
          calc 2 * (a % b) * d = 2 * (a % b * d) := Nat.mul_assoc ..
            _ ≤ 2 * (c % d * b) := Nat.mul_le_mul_left 2 rests
            _ = 2 * (c % d) * b := (Nat.mul_assoc ..).symm
            _ ≤ d * b := Nat.mul_le_mul_right b half
            _ = b * d := Nat.mul_comm ..
        have tie : 2 * (a % b) = b := by omega
        have tie' : d ≤ 2 * (c % d) := by
          refine Nat.le_of_mul_le_mul_right ?_ hb
          calc d * b = d * (2 * (a % b)) := by rw [tie]
            _ = 2 * (a % b * d) := by rw [Nat.mul_comm, Nat.mul_assoc]
            _ ≤ 2 * (c % d * b) := Nat.mul_le_mul_left 2 rests
            _ = 2 * (c % d) * b := (Nat.mul_assoc ..).symm
        omega
      · exact Nat.le_refl _

/-! ### Codes -/

theorem log2_mono {m n : Nat} (h : m ≤ n) : m.log2 ≤ n.log2 := by
  by_cases zero : m = 0
  · simp [zero]
  · exact (Nat.le_log2 (by omega)).2 (Nat.le_trans (Nat.log2_self_le zero) h)

/-- How far the last place of a quotient is shifted. -/
def shiftOf (num den : Nat) : Nat := (num / den).log2 - 52

theorem nearestCode_eq (num den : Nat) :
    nearestCode num den =
      shiftOf num den * 2 ^ 52 + roundEven num (den * 2 ^ shiftOf num den) := by
  simp only [nearestCode, shiftOf, Nat.shiftLeft_eq, Nat.reducePow]

theorem div_lt_two_pow_shiftOf (num den : Nat) : num / den < 2 ^ 53 * 2 ^ shiftOf num den := by
  have : num / den < 2 ^ ((num / den).log2 + 1) := Nat.lt_log2_self
  refine Nat.lt_of_lt_of_le this ?_
  rw [← Nat.pow_add]
  refine Nat.pow_le_pow_right (by decide) ?_
  unfold shiftOf
  omega

theorem le_div_of_shiftOf_pos {num den : Nat} (h : 0 < shiftOf num den) :
    2 ^ 52 * 2 ^ shiftOf num den ≤ num / den := by
  have pos : num / den ≠ 0 := by
    intro e
    simp [shiftOf, e] at h
  refine Nat.le_trans ?_ (Nat.log2_self_le pos)
  rw [← Nat.pow_add]
  refine Nat.pow_le_pow_right (by decide) ?_
  unfold shiftOf at h ⊢
  omega

/-- At most 53 binary places are left. -/
theorem roundEven_shiftOf_le (num den : Nat) :
    roundEven num (den * 2 ^ shiftOf num den) ≤ 2 ^ 53 := by
  refine Nat.le_trans (roundEven_le_succ ..) ?_
  rw [Nat.succ_le_iff, ← Nat.div_div_eq_div_mul]
  exact Nat.div_lt_of_lt_mul (by rw [Nat.mul_comm]; exact div_lt_two_pow_shiftOf num den)

/-- All of 53 binary places are left if the last place is worth more than one unit. -/
theorem le_roundEven_shiftOf {num den : Nat} (h : 0 < shiftOf num den) :
    2 ^ 52 ≤ roundEven num (den * 2 ^ shiftOf num den) := by
  refine Nat.le_trans ?_ (div_le_roundEven ..)
  rw [← Nat.div_div_eq_div_mul, Nat.le_div_iff_mul_le (Nat.two_pow_pos _)]
  exact le_div_of_shiftOf_pos h

/-- Codes grow with the quotient. -/
theorem nearestCode_mono {a b c d : Nat} (hb : 0 < b) (hd : 0 < d) (h : a * d ≤ c * b) :
    nearestCode a b ≤ nearestCode c d := by
  have shifts : shiftOf a b ≤ shiftOf c d :=
    Nat.sub_le_sub_right (log2_mono (div_le_div_of_cross hb hd h)) 52
  rw [nearestCode_eq, nearestCode_eq]
  obtain less | same := Nat.lt_or_eq_of_le shifts
  · have := roundEven_shiftOf_le a b
    have : 2 ^ 52 ≤ roundEven c (d * 2 ^ shiftOf c d) := le_roundEven_shiftOf (by omega)
    have : (shiftOf a b + 1) * 2 ^ 52 ≤ shiftOf c d * 2 ^ 52 := Nat.mul_le_mul_right _ less
    omega
  · rw [same]
    refine Nat.add_le_add_left (roundEven_mono ?_ ?_ ?_) _
    · exact Nat.mul_pos hb (Nat.two_pow_pos _)
    · exact Nat.mul_pos hd (Nat.two_pow_pos _)
    · rw [← Nat.mul_assoc, ← Nat.mul_assoc]
      exact Nat.mul_le_mul_right _ h

/-! ### Numbers -/

/-- The places and the exponent of a number's units and of its code. -/
theorem exists_scale (x : Binary64) :
    ∃ m k, x.units = m * 2 ^ k ∧ x.code = k * 2 ^ 52 + m ∧ m < 2 ^ 53 ∧ (k = 0 ∨ 2 ^ 52 ≤ m) := by
  by_cases small : x.code < 2 ^ 52
  · refine ⟨x.code, 0, ?_, by omega, by omega, .inl rfl⟩
    simp only [units, Nat.reducePow, Nat.pow_zero, Nat.mul_one] at small ⊢
    rw [if_pos small]
  · refine ⟨2 ^ 52 + x.code % 2 ^ 52, x.code / 2 ^ 52 - 1, ?_, ?_, ?_, .inr (by omega)⟩
    · simp only [units, Nat.reducePow, Nat.shiftLeft_eq] at small ⊢
      rw [if_neg small]
    · omega
    · have := Nat.mod_lt x.code (Nat.two_pow_pos 52)
      omega

theorem log2_mul_two_pow {m k : Nat} (low : 2 ^ 52 ≤ m) (high : m < 2 ^ 53) :
    (m * 2 ^ k).log2 = 52 + k := by
  have pos := Nat.two_pow_pos k
  rw [Nat.log2_eq_iff (Nat.mul_ne_zero (by omega) (by omega)), Nat.pow_add,
    show 52 + k + 1 = 53 + k by omega, Nat.pow_add]
  exact ⟨Nat.mul_le_mul_right _ low, Nat.mul_lt_mul_of_pos_right high pos⟩

/-- A number is the one nearest to its own units. -/
theorem nearestCode_units (x : Binary64) : nearestCode x.units 1 = x.code := by
  obtain ⟨m, k, hu, hc, hm, hk⟩ := exists_scale x
  have shift : shiftOf x.units 1 = k := by
    rw [shiftOf, Nat.div_one, hu]
    obtain rfl | full := hk
    · rw [Nat.pow_zero, Nat.mul_one]
      by_cases zero : m = 0
      · simp [zero]
      · have := (Nat.log2_lt zero).2 hm
        omega
    · rw [log2_mul_two_pow full hm]
      omega
  rw [nearestCode_eq, shift, hc, hu, Nat.one_mul, roundEven_of_dvd (Nat.two_pow_pos k)]

theorem shiftOf_eq {num den k : Nat} (pos : 0 < den) (low : 2 ^ 52 * (den * 2 ^ k) ≤ num)
    (high : num < 2 ^ 53 * (den * 2 ^ k)) : shiftOf num den = k := by
  have least : 2 ^ (52 + k) ≤ num / den := by
    rw [Nat.le_div_iff_mul_le pos, Nat.pow_add, Nat.mul_assoc, Nat.mul_comm (2 ^ k)]
    exact low
  have most : num / den < 2 ^ (52 + k + 1) := by
    rw [Nat.div_lt_iff_lt_mul pos, Nat.add_right_comm, Nat.pow_add, Nat.mul_assoc,
      Nat.mul_comm (2 ^ k)]
    exact high
  have nonzero : num / den ≠ 0 := Nat.ne_of_gt (Nat.lt_of_lt_of_le (Nat.two_pow_pos _) least)
  rw [shiftOf, (Nat.log2_eq_iff nonzero).2 ⟨least, most⟩]
  omega

theorem shiftOf_eq_zero {num den : Nat} (pos : 0 < den) (high : num < 2 ^ 53 * den) :
    shiftOf num den = 0 := by
  have most : num / den < 2 ^ 53 := (Nat.div_lt_iff_lt_mul pos).2 high
  rw [shiftOf]
  by_cases zero : num / den = 0
  · simp [zero]
  · have := (Nat.log2_lt zero).2 most
    omega

/-- A quotient within one part in `2 * 10 ^ 16` of a number is rounded to the number.  This is less
than half of its last place, and less than a quarter if it is a power of two, below which the places
are half as wide. -/
theorem nearestCode_of_close {x : Binary64} {num den : Nat} (pos : 0 < den)
    (above : 2 * 10 ^ 16 * num ≤ 2 * 10 ^ 16 * (x.units * den) + x.units * den)
    (below : 2 * 10 ^ 16 * (x.units * den) ≤ 2 * 10 ^ 16 * num + x.units * den) :
    nearestCode num den = x.code := by
  obtain ⟨m, k, units, code, small, full⟩ := exists_scale x
  have whole : x.units * den = m * (den * 2 ^ k) := by
    rw [units, Nat.mul_assoc, Nat.mul_comm (2 ^ k)]
  have place : 0 < den * 2 ^ k := Nat.mul_pos pos (Nat.two_pow_pos k)
  have most : m * (den * 2 ^ k) ≤ (2 ^ 53 - 1) * (den * 2 ^ k) :=
    Nat.mul_le_mul_right _ (Nat.le_sub_one_of_lt small)
  rw [whole] at above below
  rw [nearestCode_eq, code]
  by_cases under : 0 < k ∧ m = 2 ^ 52 ∧ num < m * (den * 2 ^ k)
  · obtain ⟨high, rfl, under⟩ := under
    obtain ⟨j, rfl⟩ : ∃ j, k = j + 1 := ⟨k - 1, by omega⟩
    have half : den * 2 ^ (j + 1) = 2 * (den * 2 ^ j) := by
      rw [Nat.pow_succ]
      ac_rfl
    have shift : shiftOf num den = j := shiftOf_eq pos (by omega) (by omega)
    rw [shift, roundEven_of_near (m := 2 ^ 53) (by omega) (by omega)]
    omega
  · have shift : shiftOf num den = k := by
      rcases Nat.lt_or_ge num (2 ^ 52 * (den * 2 ^ k)) with less | least
      · obtain rfl : k = 0 := by
          refine Nat.eq_zero_of_not_pos fun high => ?_
          have full := full.resolve_left (Nat.ne_of_gt high)
          have one : ¬ 2 ^ 52 < m := by
            intro other
            have more : (2 ^ 52 + 1) * (den * 2 ^ k) ≤ m * (den * 2 ^ k) :=
              Nat.mul_le_mul_right _ other
            omega
          obtain rfl : m = 2 ^ 52 := by omega
          exact under ⟨high, rfl, less⟩
        rw [Nat.pow_zero, Nat.mul_one] at *
        exact shiftOf_eq_zero pos (by omega)
      · exact shiftOf_eq pos least (by omega)
    rw [shift, roundEven_of_near (m := m) (by omega) (by omega)]

theorem units_ne_zero {x : Binary64} (nonzero : ¬ x.isZero) : x.units ≠ 0 := by
  obtain ⟨m, k, units, code, -, full⟩ := exists_scale x
  intro zero
  rw [units] at zero
  obtain rfl : m = 0 := by
    rcases Nat.mul_eq_zero.1 zero with none | power
    · exact none
    · exact absurd power (Nat.ne_of_gt (Nat.two_pow_pos k))
  obtain rfl : k = 0 := full.resolve_right (by decide)
  exact nonzero (beq_iff_eq.2 code)

theorem units_mono {x y : Binary64} (h : x.code ≤ y.code) : x.units ≤ y.units := by
  apply Nat.le_of_not_lt
  intro more
  have back : y.code ≤ x.code := by
    rw [← nearestCode_units x, ← nearestCode_units y]
    exact nearestCode_mono Nat.one_pos Nat.one_pos (by omega)
  have same : x.units = y.units := by rw [units, units, Nat.le_antisymm h back]
  omega

theorem code_lt_infinityCode {x : Binary64} (h : x.isFinite) : x.code < infinityCode :=
  of_decide_eq_true h

/-- The nearest number depends on the quotient alone. -/
theorem nearest_congr (negative : Bool) {a b c d : Nat} (hb : 0 < b) (hd : 0 < d)
    (e : a * d = c * b) : nearest negative a b = nearest negative c d := by
  have code : nearestCode a b = nearestCode c d :=
    Nat.le_antisymm (nearestCode_mono hb hd (by omega)) (nearestCode_mono hd hb (by omega))
  simp only [nearest, code]

/-- The largest finite number. -/
def largest : Binary64 := ⟨false, infinityCode - 1, by decide⟩

theorem units_le_largest {x : Binary64} (h : x.isFinite) : x.units ≤ largest.units :=
  units_mono (Nat.le_sub_one_of_lt (code_lt_infinityCode h))

theorem log2_units_lt {x : Binary64} (h : x.isFinite) : x.units.log2 < 2098 := by
  have last : largest.units.log2 < 2098 := by decide +kernel
  exact Nat.lt_of_le_of_lt (log2_mono (units_le_largest h)) last

/-- A finite number is the nearest one to every quotient that equals its units. -/
theorem nearest_of_eq {x : Binary64} (h : x.isFinite) {num den : Nat} (hd : 0 < den)
    (e : num = x.units * den) : nearest x.negative num den = x := by
  rw [nearest_congr x.negative hd Nat.one_pos (c := x.units) (by omega)]
  simp only [nearest, nearestCode_units, Nat.min_eq_left (Nat.le_of_lt (code_lt_infinityCode h))]

/-- What is rounded to something below a finite number is itself below it. -/
theorem lt_of_nearest_code_lt {negative : Bool} {num den : Nat} (hd : 0 < den) {x : Binary64}
    (hx : x.isFinite) (h : (nearest negative num den).code < x.code) :
    num < x.units * den := by
  apply Nat.lt_of_not_le
  intro more
  have : nearestCode x.units 1 ≤ nearestCode num den :=
    nearestCode_mono Nat.one_pos hd (by omega)
  rw [nearestCode_units] at this
  have := code_lt_infinityCode hx
  simp only [nearest] at h
  omega

theorem isFinite_nearest {negative : Bool} {num den : Nat} (hd : 0 < den) {x : Binary64}
    (hx : x.isFinite) (h : num ≤ x.units * den) : (nearest negative num den).isFinite := by
  have below : nearestCode num den ≤ nearestCode x.units 1 :=
    nearestCode_mono hd Nat.one_pos (by omega)
  have limit := code_lt_infinityCode hx
  rw [nearestCode_units] at below
  exact decide_eq_true (Nat.lt_of_le_of_lt (Nat.min_le_left ..) (Nat.lt_of_le_of_lt below limit))

/-! ### Products -/

theorem unit_eq : unit = 2 ^ 1074 := by decide +kernel

theorem unit_pos : 0 < unit := by decide +kernel

theorem mul_eq_nearest {x y : Binary64} (hx : x.isFinite) (hy : y.isFinite) :
    x * y = nearest (x.negative != y.negative) (x.units * y.units) unit := by
  have cx := code_lt_infinityCode hx
  have cy := code_lt_infinityCode hy
  show mul x y = _
  simp [mul, isNaN, isInfinite, Nat.not_lt.2 (Nat.le_of_lt cx), Nat.not_lt.2 (Nat.le_of_lt cy),
    Nat.ne_of_lt cx, Nat.ne_of_lt cy]

theorem isFinite_of_code_le {x y : Binary64} (hy : y.isFinite) (h : x.code ≤ y.code) :
    x.isFinite :=
  decide_eq_true (Nat.lt_of_le_of_lt h (code_lt_infinityCode hy))

/-- If a product does not overflow, no product of smaller factors does. -/
theorem isFinite_mul_of_le {x x' y y' : Binary64} (hx' : x'.isFinite) (hy' : y'.isFinite)
    (hx : x.code ≤ x'.code) (hy : y.code ≤ y'.code) (h : (x' * y').isFinite) :
    (x * y).isFinite := by
  have fx := isFinite_of_code_le hx' hx
  have fy := isFinite_of_code_le hy' hy
  have limit := code_lt_infinityCode h
  rw [mul_eq_nearest hx' hy'] at limit
  rw [mul_eq_nearest fx fy]
  have : nearestCode (x.units * y.units) unit ≤ nearestCode (x'.units * y'.units) unit :=
    nearestCode_mono unit_pos unit_pos
      (Nat.mul_le_mul_right _ (Nat.mul_le_mul (units_mono hx) (units_mono hy)))
  simp only [nearest] at limit
  simp only [isFinite, nearest]
  exact decide_eq_true (by omega)

theorem code_ofNat_mono {m n : Nat} (h : m ≤ n) : (ofNat m).code ≤ (ofNat n).code := by
  have : nearestCode (m * unit) 1 ≤ nearestCode (n * unit) 1 :=
    nearestCode_mono Nat.one_pos Nat.one_pos (Nat.mul_le_mul_right _ (Nat.mul_le_mul_right _ h))
  simp only [ofNat, nearest]
  omega

theorem isFinite_ofNat_of_le {m n : Nat} (h : m ≤ n) (finite : (ofNat n).isFinite) :
    (ofNat m).isFinite :=
  isFinite_of_code_le finite (code_ofNat_mono h)

/-- Whole numbers of 64 binary places are far below the infinities. -/
theorem isFinite_ofNat {n : Nat} (h : n < 2 ^ 64) : (ofNat n).isFinite :=
  isFinite_ofNat_of_le (Nat.le_of_lt h) (by decide +kernel)

/-! ### Quotients -/

theorem div_eq_nearest {x y : Binary64} (hx : x.isFinite) (hy : y.isFinite)
    (nonzero : 0 < y.code) :
    x / y = nearest (x.negative != y.negative) (x.units * unit) y.units := by
  have cx := code_lt_infinityCode hx
  have cy := code_lt_infinityCode hy
  show div x y = _
  simp [div, isNaN, isInfinite, isZero, Nat.not_lt.2 (Nat.le_of_lt cx),
    Nat.not_lt.2 (Nat.le_of_lt cy), Nat.ne_of_lt cx, Nat.ne_of_lt cy, Nat.ne_of_gt nonzero]

/-- A finite number divided by a whole one stays finite. -/
theorem isFinite_div_ofNat {x : Binary64} (hx : x.isFinite) {n : Nat} (pos : 0 < n)
    (hn : (ofNat n).isFinite) : (x / ofNat n).isFinite := by
  have least : (ofNat 1).code ≤ (ofNat n).code := code_ofNat_mono pos
  have one : (ofNat 1).units = unit := by decide +kernel
  have wide : unit ≤ (ofNat n).units := one ▸ units_mono least
  have nonzero : 0 < (ofNat n).code := Nat.lt_of_lt_of_le (by decide +kernel) least
  rw [div_eq_nearest hx hn nonzero]
  exact isFinite_nearest (Nat.lt_of_lt_of_le unit_pos wide) hx (Nat.mul_le_mul_left _ wide)

end Binary64
end BlockCanvas
