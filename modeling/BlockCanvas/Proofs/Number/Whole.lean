import BlockCanvas.Number.Display
import BlockCanvas.Proofs.Number.Exact
import BlockCanvas.Proofs.Number.Numeral
import BlockCanvas.Proofs.Number.Shortest

/-!
# Displayed whole numbers

Up to `2 ^ 53` every whole number is a 64-bit number of its own, and it is shown by its decimal
digits: `display_ofNat`.  The decimal that is searched for it is whole too, since it has no more
digits than the number itself, and so it can only be the number (`ofNat_inj`).  The first number
that is shown as another one is `2 ^ 53 + 1`.
-/

namespace BlockCanvas

theorem Text.ofNat_mul_ten_pow {n : Nat} (h : n ≠ 0) (k : Nat) :
    ofNat (n * 10 ^ k) = ofNat n ++ List.replicate k '0' := by
  induction k with
  | zero => simp
  | succ k ih =>
    have pos : 0 < n * 10 ^ k := Nat.mul_pos (Nat.pos_of_ne_zero h) (Nat.pow_pos (by decide))
    have last : Nat.toDigits 10 (n * 10 ^ k * 10) = ofNat (n * 10 ^ k) ++ ['0'] := by
      rw [Nat.toDigits_of_base_le (by decide) (by omega), Nat.mul_div_cancel _ (by decide),
        Nat.mul_mod_left]
      rfl
    rw [Nat.pow_succ, ← Nat.mul_assoc, ofNat, last, ih, List.replicate_succ', List.append_assoc]

namespace Binary64

theorem units_ofNat_of_lt {n : Nat} (h : n < 2 ^ 53) : (ofNat n).units = n * unit := by
  simpa using (units_ofNat h (Nat.zero_le 900)).2

/-- A number below `2 ^ 53` is not shared with any other whole number. -/
theorem ofNat_inj {m k : Nat} (h : m < 2 ^ 53) (same : ofNat k = ofNat m) : k = m := by
  have own := units_ofNat_of_lt h
  rcases Nat.lt_or_ge k (2 ^ 53) with less | more
  · rw [← same, units_ofNat_of_lt less] at own
    exact Nat.eq_of_mul_eq_mul_right unit_pos own
  -- both would be the number of `2 ^ 53`, which is between them
  · have power : (ofNat (2 ^ 53)).units = 2 ^ 53 * unit := by
      simpa using (units_ofNat (n := 1) (j := 53) (by decide) (by decide)).2
    have above := units_mono (code_ofNat_mono more)
    rw [same, own, power] at above
    have := Nat.le_of_mul_le_mul_right above unit_pos
    omega

/-- A decimal without a fraction is read as the number nearest to its value. -/
theorem nearest_whole (digits e : Nat) :
    (⟨digits, .ofNat e⟩ : Decimal).nearest false = ofNat (digits * 10 ^ e) := by
  rw [Decimal.nearest_eq]
  rfl

section

variable {m : Nat} (pos : 0 < m) (small : m < 2 ^ 53)
include pos small

theorem moderate_ofNat : Decimal.Moderate (ofNat m).units := by
  rw [units_ofNat_of_lt small, unit_eq]
  have low {j k : Nat} (h : j ≤ k) : 2 ^ j ≤ m * 2 ^ k :=
    Nat.le_trans (Nat.pow_le_pow_right (by decide) h) (Nat.le_mul_of_pos_left _ pos)
  have high {j k : Nat} (h : 53 + j ≤ k) : m * 2 ^ j < 2 ^ k := by
    refine Nat.lt_of_lt_of_le ?_ (Nat.pow_le_pow_right (by decide) h)
    rw [Nat.pow_add]
    exact Nat.mul_lt_mul_of_pos_right small (Nat.two_pow_pos j)
  exact ⟨low (by decide), high (by decide)⟩

/-- The first digit of the number is where its decimal digits say. -/
theorem leadingExponent_ofNat :
    Decimal.leadingExponent (ofNat m).units = (Decimal.length m - 1 : Nat) := by
  obtain ⟨low, high⟩ := Decimal.leadingExponent_spec (moderate_ofNat pos small)
  have size : Decimal.magnitude (ofNat m).units = m := by
    rw [units_ofNat_of_lt small, Decimal.magnitude]
    push_cast
    exact mul_div_cancel_right₀ _ (ne_of_gt Decimal.unit_pos_rat)
  rw [size] at low high
  have least : ((10 : ℚ) ^ (Decimal.length m - 1)) ≤ m := by
    exact_mod_cast Decimal.ten_pow_le_of_ne_zero (Nat.ne_of_gt pos)
  have most : (m : ℚ) < 10 ^ Decimal.length m := by
    exact_mod_cast Decimal.lt_ten_pow_length m
  have length : 0 < Decimal.length m := Nat.length_toDigits_pos
  rw [← zpow_natCast] at least most
  have upper := (zpow_lt_zpow_iff_right₀ (by norm_num : (1 : ℚ) < 10)).1 (lt_of_le_of_lt low most)
  have lower := (zpow_lt_zpow_iff_right₀ (by norm_num : (1 : ℚ) < 10)).1 (lt_of_le_of_lt least high)
  omega

/-- The decimal that is shown for a whole number is that number. -/
theorem shortest_ofNat (tie : Decimal.Tie) : ∃ digits e : Nat,
    (Decimal.shortest tie (ofNat m)).normalize = ⟨digits, .ofNat e⟩ ∧ digits ≠ 0 ∧
      digits * 10 ^ e = m := by
  have finite : (ofNat m).isFinite := by simpa using (units_ofNat small (Nat.zero_le 900)).1
  have back : (⟨m, .ofNat 0⟩ : Decimal).nearest (ofNat m).negative = ofNat m := by
    have whole := nearest_whole m 0
    rwa [Nat.pow_zero, Nat.mul_one] at whole
  have length : 0 < Decimal.length m := Nat.length_toDigits_pos
  have digits : (⟨m, .ofNat 0⟩ : Decimal).digits < 10 ^ (Decimal.length m - 1 + 1) := by
    rw [Nat.sub_add_cancel length]
    exact Decimal.lt_ten_pow_length m
  have short : Decimal.length m - 1 ≤ 16 := by
    have : Decimal.length m ≤ 16 :=
      (Nat.length_toDigits_le_iff (by decide) (by decide)).2 (by omega)
    omega
  obtain ⟨-, place, -⟩ := Decimal.shortest_bounds_of_nearest tie finite
    (moderate_ofNat pos small) digits short back
  rw [leadingExponent_ofNat pos small, Int.sub_self] at place
  have read := Decimal.nearest_shortest tie finite
  rw [← Decimal.nearest_congr _ (Decimal.value_normalize _)] at read
  have later := Decimal.exponent_le_normalize (Decimal.shortest tie (ofNat m))
  generalize (Decimal.shortest tie (ofNat m)).normalize = d at *
  obtain ⟨shown, e⟩ := d
  obtain ⟨e, rfl⟩ := Int.eq_ofNat_of_zero_le (Int.le_trans place later)
  have same : shown * 10 ^ e = m := ofNat_inj small ((nearest_whole shown e).symm.trans read)
  refine ⟨shown, e, rfl, ?_, same⟩
  rintro rfl
  omega

theorem not_isZero_ofNat : ¬ (ofNat m).isZero := by
  intro zero
  have code : (ofNat m).code = 0 := eq_of_beq zero
  have same := units_ofNat_of_lt small
  rw [units, code, if_pos (by decide)] at same
  exact Nat.ne_of_lt (Nat.mul_pos pos unit_pos) same

/-- A whole number below `2 ^ 53` is laid out as its decimal digits. -/
theorem text_numeral_ofNat : (shown.numeral (ofNat m)).text = Text.ofNat m := by
  obtain ⟨digits, e, shortest, nonzero, rfl⟩ := shortest_ofNat pos small shown.tie
  have written := Text.ofNat_mul_ten_pow nonzero e
  have some : 0 < (Text.ofNat digits).length := Nat.length_toDigits_pos
  have few : (Text.ofNat digits).length + e ≤ 16 := by
    have all : (Text.ofNat (digits * 10 ^ e)).length ≤ 16 :=
      (Nat.length_toDigits_le_iff (by decide) (by decide)).2 (by omega)
    rwa [written, List.length_append, List.length_replicate] at all
  have lead : (e : Int) + (Text.ofNat digits).length - 1 =
      .ofNat ((Text.ofNat digits).length + e - 1) := by
    rw [Int.ofNat_eq_natCast]
    omega
  have plain : shown.leastPlain ≤ .ofNat ((Text.ofNat digits).length + e - 1) ∧
      .ofNat ((Text.ofNat digits).length + e - 1) ≤ shown.mostPlain := by
    show (-6 : Int) ≤ _ ∧ _ ≤ (20 : Int)
    rw [Int.ofNat_eq_natCast]
    omega
  rw [Layout.numeral, if_neg (not_isZero_ofNat pos small), shortest]
  dsimp only [Int.ofNat_eq_natCast]
  rw [lead, Layout.ofDigits, if_pos plain]
  dsimp only
  have whole : (Text.ofNat digits).length + e - 1 + 1 = (Text.ofNat digits).length + e := by omega
  rw [whole, List.drop_eq_nil_of_le (by omega), List.take_of_length_le (by omega),
    Nat.add_sub_cancel_left, ← written]
  have positive : (ofNat (digits * 10 ^ e)).negative = false := rfl
  simp [Numeral.text, Numeral.signText, shown, positive]

end

/-- Up to `2 ^ 53` a whole number is shown by its decimal digits. -/
theorem display_ofNat {n : Nat} (h : n ≤ 2 ^ 53) : (ofNat n).display = Text.ofNat n := by
  rcases Nat.lt_or_eq_of_le h with small | rfl
  · rcases Nat.eq_zero_or_pos n with rfl | pos
    · decide +kernel
    · have limit := code_lt_infinityCode (units_ofNat small (Nat.zero_le 900)).1
      rw [Nat.pow_zero, Nat.mul_one] at limit
      have number : ¬ (ofNat n).isNaN := by
        rw [isNaN, decide_eq_true_iff]
        exact Nat.not_lt.2 (Nat.le_of_lt limit)
      have finite : ¬ (ofNat n).isInfinite := by
        rw [isInfinite, beq_iff_eq]
        exact Nat.ne_of_lt limit
      rw [display, if_neg number, if_neg finite, if_neg (not_isZero_ofNat pos small),
        text_numeral_ofNat pos small]
  · decide +kernel

end Binary64
end BlockCanvas
