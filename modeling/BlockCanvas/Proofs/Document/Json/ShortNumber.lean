import BlockCanvas.Proofs.Document.Json.Number
import BlockCanvas.Proofs.Number.Exact
import BlockCanvas.Proofs.Number.Shortest

/-!
# Short numbers in documents

Numbers of up to fifteen digits that are neither very large nor very small are read from a document
as they were written there: `ofNumeral?_numeral_short`.  Their digits are taken in as an exact
significand, and the power of ten that is left is exact too, so that the only rounding is the one of
the quotient.  Of any number, the sign is kept: `negative_of_float?`.
-/

namespace BlockCanvas

/-- A number from `10 ^ -8` to below `10 ^ 15` that some decimal of at most fifteen digits is read
as. -/
structure Binary64.Short (x : Binary64) : Prop where
  low : unit ≤ x.units * 10 ^ 8
  high : x.units < 10 ^ 15 * unit
  decimal : ∃ d : Decimal, d.digits < 10 ^ 15 ∧ d.nearest x.negative = x

namespace Binary64.Short

variable {x : Binary64} (h : x.Short)
include h

theorem moderate : Decimal.Moderate x.units where
  low := by
    have : 2 ^ 1040 * 10 ^ 8 ≤ unit := by decide +kernel
    exact Nat.le_of_mul_le_mul_right (Nat.le_trans this h.low) (by decide)
  high := by
    have : 10 ^ 15 * unit ≤ 2 ^ 1130 := by decide +kernel
    exact Nat.lt_of_lt_of_le h.high this

theorem leadingExponent_bounds :
    -8 ≤ Decimal.leadingExponent x.units ∧ Decimal.leadingExponent x.units ≤ 14 := by
  obtain ⟨first, last⟩ := Decimal.leadingExponent_spec h.moderate
  have pos := Decimal.unit_pos_rat
  have low : (10 : ℚ) ^ (-8 : Int) ≤ Decimal.magnitude x.units := by
    rw [Decimal.magnitude, le_div_iff₀ pos, zpow_neg, inv_mul_le_iff₀ (by positivity), mul_comm]
    exact_mod_cast h.low
  have high : Decimal.magnitude x.units < (10 : ℚ) ^ (15 : Int) := by
    rw [Decimal.magnitude, div_lt_iff₀ pos]
    exact_mod_cast h.high
  have above := (zpow_lt_zpow_iff_right₀ (by norm_num)).1 (lt_of_le_of_lt low last)
  have below := (zpow_lt_zpow_iff_right₀ (by norm_num)).1 (lt_of_le_of_lt first high)
  omega

theorem not_isZero : ¬x.isZero := by
  intro zero
  have code : x.code = 0 := by simpa [isZero] using zero
  have units : x.units = 0 := by
    rw [units, code]
    rfl
  have := h.low
  rw [units, Nat.zero_mul] at this
  exact absurd unit_pos (Nat.not_lt.2 this)

/-- The decimal that is written for a short number. -/
theorem shortest_bounds (finite : x.isFinite) (tie : Decimal.Tie) :
    (Decimal.shortest tie x).digits ≤ 10 ^ 15 ∧ -22 ≤ (Decimal.shortest tie x).exponent ∧
      (Decimal.shortest tie x).value ≤ 10 ^ (15 : Int) := by
  obtain ⟨d, digits, back⟩ := h.decimal
  obtain ⟨few, last, value⟩ :=
    Decimal.shortest_bounds_of_nearest tie finite h.moderate digits (by decide) back
  obtain ⟨low, high⟩ := h.leadingExponent_bounds
  refine ⟨few, by omega, le_trans value ?_⟩
  exact zpow_le_zpow_right₀ (by norm_num) (by omega)

/-- The same without zeros at its end, and the place of its first digit. -/
theorem normalize_bounds (finite : x.isFinite) (tie : Decimal.Tie) {d : Decimal}
    (hd : (Decimal.shortest tie x).normalize = d) :
    d.digits ≤ 10 ^ 15 ∧ -22 ≤ d.exponent ∧ d.value ≤ 10 ^ (15 : Int) ∧
      d.exponent + Decimal.length d.digits - 1 ≤ 15 := by
  obtain ⟨few, last, most⟩ := h.shortest_bounds finite tie
  have first := Decimal.ten_zpow_le_value (Layout.digits_shortest_ne_zero finite tie h.not_isZero)
  have fewer := Decimal.digits_normalize_le (Decimal.shortest tie x)
  have later := Decimal.exponent_le_normalize (Decimal.shortest tie x)
  rw [← Decimal.value_normalize] at most
  rw [hd] at first fewer later most
  exact ⟨Nat.le_trans fewer few, Int.le_trans last later, most,
    (zpow_le_zpow_iff_right₀ (by norm_num)).1 (le_trans first most)⟩

end Binary64.Short

namespace Json
namespace Amount

/-! ### Exact significands -/

/-- A significand that is a number itself: 53 binary places and zeros after them. -/
structure Exact (s : Nat) : Prop where
  small : s ≤ maxSignificand
  places : ∃ n j, s = n * 2 ^ j ∧ n < 2 ^ 53 ∧ j ≤ 900

theorem scale?_eq_nearest {s : Nat} (exact : Exact s) {e : Int} (low : -22 ≤ e) (high : e < 0) :
    scale? s e = some ((⟨s, e⟩ : Decimal).nearest false) := by
  obtain ⟨n, j, rfl, hn, hj⟩ := exact.places
  cases e with
  | ofNat above =>
    rw [Int.ofNat_eq_natCast] at high
    omega
  | negSucc below =>
    have room : below < 22 := by
      rw [Int.negSucc_eq] at low
      omega
    have near : below + 1 ≤ 308 := by omega
    simp only [scale?]
    rw [divideBy, if_pos near, ← Binary64.ofNat_div_ofNat_ten_pow hn hj room, Nat.pow_eq]

/-- All digits of a numeral are taken in if there is room for them. -/
theorem float?_eq_scale? {n : Numeral} (digits : n.decimal.digits ≤ maxSignificand)
    (low : -22 ≤ n.decimal.exponent) (high : n.decimal.exponent < 0)
    (readable : ∀ mark ∈ n.exponent, Text.decimalValue mark.2 ≤ maxExponent) :
    float? n = (scale? n.decimal.digits n.decimal.exponent).map fun x =>
      if n.negative then -x else x := by
  rw [decimal_eq] at digits low high ⊢
  dsimp only at digits low high ⊢
  rw [Text.decimalValue, Nat.ofDigitChars_append] at digits ⊢
  have whole := le_ofDigitChars (n.fraction.getD []) (Nat.ofDigitChars 10 n.whole 0)
  simp only [float?, absorb_eq n.whole (Nat.le_trans whole digits), absorb_eq _ digits,
    Nat.sub_self]
  congr 1
  cases mark : n.exponent with
  | none => simp [magnitude?, writtenExponent]
  | some written =>
    obtain ⟨below, e⟩ := written
    have small := readable _ mark
    rw [mark] at low high
    have room : 22 ≤ maxExponent := by decide
    simp only [magnitude?, if_neg (Nat.not_lt.2 small)]
    congr 1
    cases below <;> simp only [writtenExponent, clamp] at low high ⊢ <;> simp <;> omega

/-- A numeral whose significand and power of ten are numbers themselves. -/
structure Direct (n : Numeral) : Prop where
  exact : Exact n.decimal.digits
  low : -22 ≤ n.decimal.exponent
  high : n.decimal.exponent < 0
  readable : ∀ mark ∈ n.exponent, Text.decimalValue mark.2 ≤ maxExponent

/-- Such a numeral is rounded once. -/
theorem float?_eq_nearest {n : Numeral} (h : Direct n) : float? n = some n.nearest := by
  rw [float?_eq_scale? h.exact.small h.low h.high h.readable,
    scale?_eq_nearest h.exact h.low h.high, Option.map_some, Numeral.nearest]
  congr 1
  cases n.negative with
  | false => rfl
  | true =>
    rw [if_pos rfl, Decimal.nearest_eq, Decimal.nearest_eq, Binary64.neg_nearest]

/-! ### Numerals of short numbers -/

/-- Every number in a document has something after its point or an exponent. -/
theorem marked_numeral (x : Binary64) :
    ¬((layout.numeral x).fraction = none ∧ (layout.numeral x).exponent = none) := by
  have marked (digits : Text) (lead : Int) :
      ¬((layout.ofDigits x.negative digits lead).fraction = none ∧
        (layout.ofDigits x.negative digits lead).exponent = none) := by
    unfold Layout.ofDigits
    split
    · split
      · simp
      · dsimp only
        split <;> simp [layout]
    · simp
  unfold Layout.numeral
  split <;> exact marked _ _

theorem ofNumeral?_numeral (x : Binary64) :
    ofNumeral? (layout.numeral x) = (float? (layout.numeral x)).map .float := by
  simp only [ofNumeral?, if_neg (marked_numeral x)]

/-- How digits are laid out in a document if they do not stand for a large number: the last of them
or one zero is written behind the point. -/
structure LaidOut (n : Numeral) (last : Int) : Prop where
  behind : n.decimal.exponent < 0
  exponent : n.decimal.exponent = last ∨ n.decimal.exponent = -1
  readable : ∀ mark ∈ n.exponent, Text.decimalValue mark.2 ≤ maxExponent

theorem laidOut_ofDigits (negative : Bool) {digits : Text} (h : digits ≠ []) {lead : Int}
    (low : -22 ≤ lead) (high : lead ≤ 15) :
    LaidOut (layout.ofDigits negative digits lead) (lead + 1 - digits.length) := by
  have pos := List.length_pos_iff.2 h
  have room : 22 ≤ maxExponent := by decide
  unfold Layout.ofDigits
  split
  · split
    · next below plain =>
      refine ⟨?_, .inl ?_, by simp⟩ <;>
      · simp [Numeral.decimal, Int.negSucc_eq]
        omega
    · next above plain =>
      by_cases some : digits.drop (above + 1) = []
      · simp only [some, layout]
        exact ⟨by simp [Numeral.decimal], .inr (by simp [Numeral.decimal]), by simp⟩
      · have long : above + 1 < digits.length := by
          rw [List.drop_eq_nil_iff] at some
          omega
        simp only [ne_eq, some, not_false_eq_true, if_true]
        refine ⟨?_, .inl ?_, by simp⟩ <;>
        · simp [Numeral.decimal]
          omega
  · next far =>
    have below : lead < 0 := by
      simp only [layout] at far
      omega
    have fraction : (if digits.drop 1 ≠ [] then some (digits.drop 1) else none).getD [] =
        digits.drop 1 := by
      split
      · rfl
      · next none => exact (not_not.1 none).symm
    simp only [below, decide_true]
    refine ⟨?_, .inl ?_, ?_⟩
    · simp only [Numeral.decimal, fraction, Text.decimalValue_ofNat, List.length_drop]
      omega
    · simp only [Numeral.decimal, fraction, Text.decimalValue_ofNat, List.length_drop]
      omega
    · rintro _ ⟨⟩
      rw [Text.decimalValue_ofNat]
      omega

/-- Zeros are only written for the point, and then the significand is even. -/
theorem exact_of_zeros {digits zeros : Nat} {e : Int} (few : digits ≤ 10 ^ 15)
    (tenths : zeros = 0 ∨ e = -1)
    (value : (⟨digits * 10 ^ zeros, e⟩ : Decimal).value ≤ 10 ^ (15 : Int)) :
    Exact (digits * 10 ^ zeros) := by
  have room : 10 ^ 16 ≤ maxSignificand := by decide
  cases zeros with
  | zero =>
    rw [Nat.pow_zero, Nat.mul_one]
    exact ⟨by omega, digits, 0, by simp, by omega, by omega⟩
  | succ zeros =>
    obtain rfl : e = -1 := by omega
    have bound : digits * 10 ^ (zeros + 1) ≤ 10 ^ 16 := by
      rw [Decimal.value, zpow_neg, zpow_one, ← div_eq_mul_inv, div_le_iff₀ (by norm_num)] at value
      norm_num at value
      exact_mod_cast value
    have even : digits * 10 ^ (zeros + 1) = digits * 10 ^ zeros * 5 * 2 ^ 1 := by ring
    exact ⟨by omega, digits * 10 ^ zeros * 5, 1, even, by omega, by omega⟩

theorem direct_numeral {x : Binary64} (short : x.Short) (finite : x.isFinite) :
    Direct (layout.numeral x) := by
  have value : (layout.numeral x).decimal.value = (Decimal.shortest .toEven x).value :=
    layout.value_decimal_numeral short.not_isZero
  have form := numeral_of_nonzero short.not_isZero
  rw [← Decimal.value_normalize (Decimal.shortest .toEven x)] at value
  generalize hd : (Decimal.shortest .toEven x).normalize = d at form value
  obtain ⟨few, last, most, lead⟩ := short.normalize_bounds finite .toEven hd
  have pos : 0 < Decimal.length d.digits := Nat.length_toDigits_pos
  have digits := (Text.isDigits_ofNat d.digits).ne_nil
  have laid := laidOut_ofDigits x.negative digits (by omega) lead
  obtain ⟨zeros, -, decimal⟩ := layout.decimal_ofDigits x.negative digits
    (d.exponent + Decimal.length d.digits - 1)
  have place : d.exponent + Decimal.length d.digits - 1 + 1 - (Text.ofNat d.digits).length =
      d.exponent := by
    show d.exponent + Decimal.length d.digits - 1 + 1 - (Decimal.length d.digits : Int) = _
    omega
  dsimp only at form
  rw [← form, place] at laid decimal
  rw [Text.decimalValue_ofNat] at decimal
  refine ⟨?_, ?_, laid.behind, laid.readable⟩
  · have tenths := laid.exponent
    rw [decimal] at tenths value ⊢
    refine exact_of_zeros few (tenths.imp (fun e => ?_) id) (le_of_eq_of_le value most)
    dsimp only at e
    omega
  · have := laid.exponent
    omega

/-- A short number is read from a document as it was written there. -/
theorem ofNumeral?_numeral_short {x : Binary64} (short : x.Short) (finite : x.isFinite) :
    ofNumeral? (layout.numeral x) = some (.float x) := by
  rw [ofNumeral?_numeral, float?_eq_nearest (direct_numeral short finite),
    layout.nearest_numeral finite]
  rfl

/-! ### Signs -/

theorem negative_mul {x y : Binary64} (hx : x.negative = false) (hy : y.negative = false) :
    (x * y).negative = false := by
  show (x.mul y).negative = false
  unfold Binary64.mul
  simp only [hx, hy]
  split
  · rfl
  · split
    · split <;> rfl
    · rfl

theorem negative_div {x y : Binary64} (hx : x.negative = false) (hy : y.negative = false) :
    (x / y).negative = false := by
  show (x.div y).negative = false
  unfold Binary64.div
  simp only [hx, hy]
  repeat' split
  all_goals rfl

theorem negative_divideBy {x : Binary64} (hx : x.negative = false) (power : Nat) :
    (divideBy x power).negative = false := by
  induction x, power using divideBy.induct with
  | case1 x power near =>
    rw [divideBy, if_pos near]
    exact negative_div hx rfl
  | case2 x power far zero =>
    rw [divideBy, if_neg far, if_pos zero]
    exact hx
  | case3 x power far zero ih =>
    rw [divideBy, if_neg far, if_neg zero]
    exact ih (negative_div hx rfl)

theorem negative_of_scale? {s : Nat} {e : Int} {x : Binary64} (h : scale? s e = some x) :
    x.negative = false := by
  unfold scale? at h
  dsimp only at h
  split at h
  · cases h
    exact negative_divideBy rfl _
  · split at h
    · split at h
      · cases h
      · cases h
        exact negative_mul rfl rfl
    · split at h
      · cases h
        rfl
      · cases h

theorem negative_of_magnitude? {s : Nat} {shift : Int} {exponent : Option (Bool × Text)}
    {x : Binary64} (h : magnitude? s shift exponent = some x) : x.negative = false := by
  unfold magnitude? at h
  split at h
  · exact negative_of_scale? h
  · dsimp only at h
    split at h
    · split at h
      · cases h
      · cases h
        rfl
    · exact negative_of_scale? h

/-- The sign of a number is kept. -/
theorem negative_of_float? {n : Numeral} {x : Binary64} (h : float? n = some x) :
    x.negative = n.negative := by
  obtain ⟨y, read, rfl⟩ := Option.map_eq_some_iff.1 h
  have positive := negative_of_magnitude? read
  cases n.negative with
  | false => exact positive
  | true =>
    show (!y.negative) = true
    rw [positive]
    rfl

end Amount
end Json
end BlockCanvas
