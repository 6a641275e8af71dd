import Mathlib.Tactic.LinearCombination
import Mathlib.Tactic.Linarith
import BlockCanvas.Proofs.Number.Decimal

/-!
# The shortest decimal

The decimal that is written for a number has no more digits than any decimal that is read as the
number: `shortest_bounds_of_nearest`.  If a decimal of `n + 1` digits is read as the number then the
number lies between it and one of its own neighbours of `n + 1` digits, so that this one is read as
the number too.

The search starts at the first digit of the number; `leadingExponent` finds its place
(`leadingExponent_spec_of_lt`).  It ends after seventeen digits at the latest: the decimal of
seventeen digits that is nearest to a number is too close to it to be read as another one
(`shortest_bounds`).
-/

namespace BlockCanvas
namespace Decimal

/-- A magnitude as a rational number. -/
def magnitude (units : Nat) : ℚ := units / Binary64.unit

theorem unit_pos_rat : (0 : ℚ) < Binary64.unit := by exact_mod_cast Binary64.unit_pos

theorem magnitude_mono {m n : Nat} (h : m ≤ n) : magnitude m ≤ magnitude n :=
  div_le_div_of_nonneg_right (by exact_mod_cast h) (le_of_lt unit_pos_rat)

/-! ### Places -/

theorem quotient_spec (units : Nat) (e : Int) :
    0 < (quotient units e).2 ∧
      ((quotient units e).1 : ℚ) = magnitude units / 10 ^ e * (quotient units e).2 := by
  have pos := unit_pos_rat
  cases e with
  | ofNat e =>
    refine ⟨Nat.mul_pos Binary64.unit_pos (Nat.pow_pos (by decide)), ?_⟩
    simp only [quotient, magnitude, Int.ofNat_eq_natCast, zpow_natCast, Nat.pow_eq]
    push_cast
    field_simp
  | negSucc e =>
    refine ⟨Binary64.unit_pos, ?_⟩
    simp only [quotient, magnitude, zpow_negSucc, Nat.pow_eq]
    push_cast
    field_simp

theorem reaches_iff (units : Nat) (e : Int) :
    reaches units e = true ↔ (10 : ℚ) ^ e ≤ magnitude units := by
  obtain ⟨pos, num⟩ := quotient_spec units e
  have posQ : (0 : ℚ) < (quotient units e).2 := by exact_mod_cast pos
  have place : (0 : ℚ) < 10 ^ e := by positivity
  rw [reaches, decide_eq_true_iff, ← Nat.cast_le (α := ℚ), num, le_mul_iff_one_le_left posQ,
    one_le_div place]

theorem missed {units : Nat} {e : Int} (h : reaches units e = false) :
    magnitude units < (10 : ℚ) ^ e := by
  rw [← not_le, ← reaches_iff, h]
  exact Bool.false_ne_true

/-- The magnitudes of `n + 1` binary places start near the place that is guessed for them. -/
def GuessedWell (n : Nat) : Prop :=
  reaches (2 ^ n) (((n : Int) - 1074) * 1233 / 4096 - 1) = true ∧
    reaches (2 ^ (n + 1) - 1) (((n : Int) - 1074) * 1233 / 4096 + 2) = false

instance (n : Nat) : Decidable (GuessedWell n) := inferInstanceAs (Decidable (_ ∧ _))

theorem guessedWell_of_lt : ∀ n < 2098, GuessedWell n := by
  decide +kernel

/-- The place of the first digit is found. -/
theorem leadingExponent_spec_of_lt {units : Nat} (pos : units ≠ 0) (high : units.log2 < 2098) :
    (10 : ℚ) ^ leadingExponent units ≤ magnitude units ∧
      magnitude units < 10 ^ (leadingExponent units + 1) := by
  obtain ⟨least, most⟩ := guessedWell_of_lt units.log2 high
  generalize guessed : ((units.log2 : Int) - 1074) * 1233 / 4096 = guess at least most
  have above : (10 : ℚ) ^ (guess - 1) ≤ magnitude units :=
    le_trans ((reaches_iff _ _).1 least) (magnitude_mono (Nat.log2_self_le pos))
  have below : magnitude units < 10 ^ (guess + 2) :=
    lt_of_le_of_lt (magnitude_mono (Nat.le_sub_one_of_lt Nat.lt_log2_self)) (missed most)
  simp only [leadingExponent, guessed]
  split
  · next reached => exact ⟨(reaches_iff _ _).1 reached, by rwa [Int.add_assoc]⟩
  · next after =>
    split
    · next reached => exact ⟨(reaches_iff _ _).1 reached, missed (eq_false_of_ne_true after)⟩
    · next first =>
      rw [Int.sub_add_cancel]
      exact ⟨above, missed (eq_false_of_ne_true first)⟩

/-- The magnitudes from about `10 ^ -10` to about `10 ^ 16`. -/
structure Moderate (units : Nat) : Prop where
  low : 2 ^ 1040 ≤ units
  high : units < 2 ^ 1130

theorem log2_bounds {units low high : Nat} (above : 2 ^ low ≤ units) (below : units < 2 ^ high) :
    units ≠ 0 ∧ units.log2 < high := by
  have pos : units ≠ 0 := (lt_of_lt_of_le (Nat.two_pow_pos low) above).ne'
  exact ⟨pos, (Nat.log2_lt pos).2 below⟩

theorem leadingExponent_spec {units : Nat} (h : Moderate units) :
    (10 : ℚ) ^ leadingExponent units ≤ magnitude units ∧
      magnitude units < 10 ^ (leadingExponent units + 1) := by
  obtain ⟨pos, high⟩ := log2_bounds h.low h.high
  exact leadingExponent_spec_of_lt pos (by omega)

/-! ### Neighbours -/

/-- The neighbours of a magnitude are the two multiples that it lies between. -/
theorem neighbours_spec (tie : Tie) (units : Nat) (e : Int) :
    ∃ q : Nat, value ⟨q, e⟩ ≤ magnitude units ∧ magnitude units < value ⟨q + 1, e⟩ ∧
      ∀ d : Decimal, d ∈ neighbours tie units e ↔ d = ⟨q, e⟩ ∨ d = ⟨q + 1, e⟩ := by
  obtain ⟨pos, split⟩ := quotient_spec units e
  generalize parts : quotient units e = fraction at pos split
  obtain ⟨num, den⟩ := fraction
  dsimp only at pos split
  have posQ : (0 : ℚ) < den := by exact_mod_cast pos
  have place : (0 : ℚ) < 10 ^ e := by positivity
  have whole : magnitude units = num / den * 10 ^ e := by
    rw [split]
    field_simp
  refine ⟨num / den, ?_, ?_, fun d => ?_⟩
  · rw [value, whole]
    refine mul_le_mul_of_nonneg_right ?_ (le_of_lt place)
    rw [le_div_iff₀ posQ]
    exact_mod_cast Nat.div_mul_le_self num den
  · rw [value, whole]
    refine mul_lt_mul_of_pos_right ?_ place
    rw [div_lt_iff₀ posQ]
    exact_mod_cast Nat.lt_mul_of_div_lt (Nat.lt_succ_self (num / den)) pos
  · obtain ⟨both, -⟩ | ⟨both, -⟩ := neighbours_cases tie parts
    · simp [both]
    · simp [both, or_comm]

/-! ### Numbers between decimals -/

theorem code_nearest_mono (negative : Bool) {d d' : Decimal} (h : d.value ≤ d'.value) :
    (d.nearest negative).code ≤ (d'.nearest negative).code := by
  have pos : (0 : ℚ) < d.fraction.2 := by exact_mod_cast d.fraction_pos
  have pos' : (0 : ℚ) < d'.fraction.2 := by exact_mod_cast d'.fraction_pos
  rw [value_eq_div, value_eq_div, div_le_div_iff₀ pos pos'] at h
  have cross : d.fraction.1 * d'.fraction.2 ≤ d'.fraction.1 * d.fraction.2 := by exact_mod_cast h
  have := nearestCode_mul_unit_mono d.fraction_pos d'.fraction_pos cross
  rw [nearest_eq, nearest_eq]
  simp only [Binary64.nearest]
  omega

theorem negative_nearest (negative : Bool) (d : Decimal) :
    (d.nearest negative).negative = negative := by
  rw [nearest_eq]
  rfl

theorem value_exact_eq (units : Nat) : (exact units).value = magnitude units := by
  rw [magnitude, eq_div_iff (ne_of_gt unit_pos_rat), value_exact]

variable {x : Binary64}

/-- What lies between decimals that are read as a number is read as the number. -/
theorem nearest_of_between {low high d : Decimal} (hl : low.nearest x.negative = x)
    (hh : high.nearest x.negative = x) (above : low.value ≤ d.value)
    (below : d.value ≤ high.value) : d.nearest x.negative = x := by
  have least := code_nearest_mono x.negative above
  have most := code_nearest_mono x.negative below
  rw [hl] at least
  rw [hh] at most
  have sign := negative_nearest x.negative d
  generalize d.nearest x.negative = y at *
  obtain ⟨negative, code, _⟩ := x
  obtain ⟨negative', code', _⟩ := y
  obtain rfl : negative' = negative := sign
  obtain rfl : code' = code := Nat.le_antisymm most least
  rfl

theorem nearest_exact (finite : x.isFinite) : (exact x.units).nearest x.negative = x :=
  nearest_of_value_eq finite (value_exact x.units)

/-- Below the place of the first digit, a decimal of `n + 1` digits reaches this place only as a
multiple of the place of the last one. -/
theorem exists_multiple {d : Decimal} {n : Nat} {lead : Int} (digits : d.digits < 10 ^ (n + 1))
    (reached : (10 : ℚ) ^ lead ≤ d.value) : ∃ k : Nat, d.value = k * 10 ^ (lead - n) := by
  have place : lead - n ≤ d.exponent := by
    by_contra less
    have all : (d.digits : ℚ) < 10 ^ (n + 1) := by exact_mod_cast digits
    have : d.value < 10 ^ lead :=
      calc d.value < 10 ^ (n + 1) * 10 ^ d.exponent :=
            mul_lt_mul_of_pos_right all (by positivity)
        _ = 10 ^ ((n + 1 : Nat) + d.exponent) := by
            rw [zpow_add₀ (by decide), zpow_natCast]
        _ ≤ 10 ^ lead := zpow_le_zpow_right₀ (by norm_num) (by omega)
    exact absurd reached (not_le.2 this)
  refine ⟨d.digits * 10 ^ (d.exponent - (lead - n)).toNat, ?_⟩
  push_cast
  rw [value, mul_assoc, ← zpow_natCast, ← zpow_add₀ (by decide)]
  congr 2
  omega

theorem ten_pow_mul_zpow (n : Nat) (e : Int) : ((10 ^ n : Nat) : ℚ) * 10 ^ (e - n) = 10 ^ e := by
  push_cast
  rw [← zpow_natCast, ← zpow_add₀ (by decide), add_sub_cancel]

theorem le_of_mul_zpow_lt {k q : Nat} {e : Int} {m : ℚ} (low : (k : ℚ) * 10 ^ e ≤ m)
    (high : m < value ⟨q + 1, e⟩) : k ≤ q := by
  have : (k : ℚ) < (q + 1 : Nat) :=
    lt_of_mul_lt_mul_right (lt_of_le_of_lt low high) (by positivity)
  exact Nat.le_of_lt_succ (by exact_mod_cast this)

theorem lt_of_lt_mul_zpow {k q : Nat} {e : Int} {m : ℚ} (low : value ⟨q, e⟩ ≤ m)
    (high : m < (k : ℚ) * 10 ^ e) : q < k := by
  have : (q : ℚ) < k := lt_of_mul_lt_mul_right (lt_of_le_of_lt low high) (by positivity)
  exact_mod_cast this

/-! ### The search -/

/-- If a decimal of `n + 1` digits is read as the number, so is one of its neighbours of as many
digits: the one on the side of the decimal. -/
theorem exists_neighbour (tie : Tie) (finite : x.isFinite) (moderate : Moderate x.units)
    {d : Decimal} {n : Nat} (digits : d.digits < 10 ^ (n + 1)) (back : d.nearest x.negative = x) :
    ∃ c ∈ neighbours tie x.units (leadingExponent x.units - n), c.nearest x.negative = x := by
  obtain ⟨reached, -⟩ := leadingExponent_spec moderate
  obtain ⟨q, below, above, mem⟩ := neighbours_spec tie x.units (leadingExponent x.units - n)
  have own := nearest_exact finite
  generalize leadingExponent x.units = lead at *
  rw [← value_exact_eq] at reached below above
  obtain less | more := le_or_gt d.value (exact x.units).value
  · obtain ⟨k, least, most⟩ : ∃ k : Nat, d.value ≤ k * 10 ^ (lead - n) ∧
        (k : ℚ) * 10 ^ (lead - n) ≤ (exact x.units).value := by
      obtain short | long := lt_or_ge d.value (10 ^ lead)
      · rw [← ten_pow_mul_zpow n lead] at short reached
        exact ⟨10 ^ n, le_of_lt short, reached⟩
      · obtain ⟨k, hk⟩ := exists_multiple digits long
        exact ⟨k, le_of_eq hk, by rw [← hk]; exact less⟩
    refine ⟨⟨q, lead - n⟩, (mem _).2 (.inl rfl), nearest_of_between back own ?_ below⟩
    refine le_trans least (mul_le_mul_of_nonneg_right ?_ (by positivity))
    exact_mod_cast le_of_mul_zpow_lt most above
  · obtain ⟨k, hk⟩ := exists_multiple digits (le_of_lt (lt_of_le_of_lt reached more))
    refine ⟨⟨q + 1, lead - n⟩, (mem _).2 (.inr rfl), ?_⟩
    refine nearest_of_between own back (le_of_lt above) ?_
    rw [hk] at more ⊢
    refine mul_le_mul_of_nonneg_right ?_ (by positivity)
    exact_mod_cast lt_of_lt_mul_zpow below more

/-- The search ends where it meets a neighbour that is read as the number, or before. -/
theorem shortest_mem_neighbours (tie : Tie) {c : Decimal} {n : Nat} (few : n ≤ 16)
    (mem : c ∈ neighbours tie x.units (leadingExponent x.units - n))
    (read : c.nearest x.negative = x) :
    ∃ m ≤ n, shortest tie x ∈ neighbours tie x.units (leadingExponent x.units - m) := by
  have split : List.range 17 = List.range (n + 1) ++ (List.range (16 - n)).map (n + 1 + ·) := by
    rw [← List.range_add, Nat.add_right_comm, Nat.add_sub_cancel' few]
  simp only [shortest, split, List.findSome?_append]
  generalize hf : (fun (n : Nat) => (neighbours tie x.units (leadingExponent x.units - n)).find?
    fun d => nearest x.negative d == x) = f
  have found : ((List.range (n + 1)).findSome? f).isSome := by
    rw [List.findSome?_isSome_iff]
    refine ⟨n, List.mem_range.2 (Nat.lt_succ_self n), ?_⟩
    rw [← hf, List.find?_isSome]
    exact ⟨c, mem, by simpa using read⟩
  obtain ⟨b, hb⟩ := Option.isSome_iff_exists.1 found
  obtain ⟨m, hm, first⟩ := List.exists_of_findSome?_eq_some hb
  refine ⟨m, Nat.le_of_lt_succ (List.mem_range.1 hm), ?_⟩
  rw [hb]
  rw [← hf] at first
  exact List.mem_of_find?_eq_some first

/-- What the first digit of the number and the number of digits say about a neighbour. -/
theorem bounds_of_mem_neighbours {tie : Tie} {units m n : Nat} {d : Decimal} (few : m ≤ n)
    (high : magnitude units < 10 ^ (leadingExponent units + 1))
    (mem : d ∈ neighbours tie units (leadingExponent units - m)) :
    d.digits ≤ 10 ^ (n + 1) ∧ leadingExponent units - n ≤ d.exponent ∧
      d.value ≤ 10 ^ (leadingExponent units + 1) := by
  obtain ⟨q, below, -, both⟩ := neighbours_spec tie units (leadingExponent units - m)
  have bound := ten_pow_mul_zpow (m + 1) (leadingExponent units + 1)
  have place : leadingExponent units + 1 - (m + 1 : Nat) = leadingExponent units - m := by
    omega
  rw [place] at bound
  rw [← bound] at high
  have small : q + 1 ≤ 10 ^ (m + 1) := lt_of_lt_mul_zpow below high
  have all : d.digits ≤ 10 ^ (m + 1) ∧ d.exponent = leadingExponent units - m := by
    obtain e | e := (both _).1 mem <;> rw [e]
    · exact ⟨Nat.le_of_succ_le small, rfl⟩
    · exact ⟨small, rfl⟩
  refine ⟨Nat.le_trans all.1 (Nat.pow_le_pow_right (by decide) (by omega)), by omega, ?_⟩
  rw [← bound, value, all.2]
  refine mul_le_mul_of_nonneg_right ?_ (by positivity)
  exact_mod_cast all.1

/-- The decimal that is written for a number has no more digits than one that is read as it. -/
theorem shortest_bounds_of_nearest (tie : Tie) (finite : x.isFinite) (moderate : Moderate x.units)
    {d : Decimal} {n : Nat} (digits : d.digits < 10 ^ (n + 1)) (few : n ≤ 16)
    (back : d.nearest x.negative = x) :
    (shortest tie x).digits ≤ 10 ^ (n + 1) ∧
      leadingExponent x.units - n ≤ (shortest tie x).exponent ∧
        (shortest tie x).value ≤ 10 ^ (leadingExponent x.units + 1) := by
  obtain ⟨c, near, read⟩ := exists_neighbour tie finite moderate digits back
  obtain ⟨m, hm, mem⟩ := shortest_mem_neighbours tie few near read
  exact bounds_of_mem_neighbours hm (leadingExponent_spec moderate).2 mem

/-! ### Seventeen digits -/

/-- A decimal within one part in `2 * 10 ^ 16` of a number is read as the number. -/
theorem nearest_of_close (finite : x.isFinite) {d : Decimal}
    (above : 2 * 10 ^ 16 * d.value ≤ 2 * 10 ^ 16 * magnitude x.units + magnitude x.units)
    (below : 2 * 10 ^ 16 * magnitude x.units ≤ 2 * 10 ^ 16 * d.value + magnitude x.units) :
    d.nearest x.negative = x := by
  have pos := unit_pos_rat
  have den : (0 : ℚ) < d.fraction.2 := by exact_mod_cast d.fraction_pos
  have limit := Binary64.code_lt_infinityCode finite
  have cross : d.value * (d.fraction.2 * Binary64.unit) = d.fraction.1 * Binary64.unit := by
    rw [value_eq_div]
    field_simp
  have cross' : magnitude x.units * (d.fraction.2 * Binary64.unit) = x.units * d.fraction.2 := by
    rw [magnitude]
    field_simp
  have scale : (0 : ℚ) ≤ d.fraction.2 * Binary64.unit := le_of_lt (mul_pos den pos)
  have code : Binary64.nearestCode (d.fraction.1 * Binary64.unit) d.fraction.2 = x.code := by
    refine Binary64.nearestCode_of_close d.fraction_pos ?_ ?_
    · have scaled := mul_le_mul_of_nonneg_right above scale
      rw [add_mul, mul_assoc, mul_assoc _ (magnitude _), cross, cross'] at scaled
      exact_mod_cast scaled
    · have scaled := mul_le_mul_of_nonneg_right below scale
      rw [add_mul, mul_assoc, mul_assoc _ d.value, cross, cross'] at scaled
      exact_mod_cast scaled
  rw [nearest_eq]
  simp only [Binary64.nearest, code, Nat.min_eq_left (Nat.le_of_lt limit)]

/-- The first neighbour of seventeen digits is read as the number: it is half a place away, and the
number has at least `10 ^ 16` of these places. -/
theorem exists_seventeen (tie : Tie) (finite : x.isFinite)
    (reached : (10 : ℚ) ^ leadingExponent x.units ≤ magnitude x.units) :
    ∃ c ∈ neighbours tie x.units (leadingExponent x.units - 16), c.nearest x.negative = x := by
  generalize leadingExponent x.units = lead at *
  obtain ⟨pos, split⟩ := quotient_spec x.units (lead - 16)
  generalize parts : quotient x.units (lead - 16) = fraction at pos split
  obtain ⟨num, den⟩ := fraction
  dsimp only at pos split
  obtain ⟨q, rest, near, below, above⟩ := neighbours_head tie parts pos
  refine ⟨⟨q, lead - 16⟩, by rw [near]; exact List.mem_cons_self, ?_⟩
  have posQ : (0 : ℚ) < den := by exact_mod_cast pos
  have place : (0 : ℚ) < 10 ^ (lead - 16) := by positivity
  have places := ten_pow_mul_zpow 16 lead
  push_cast at places
  rw [← places] at reached
  have whole : magnitude x.units * den = num * 10 ^ (lead - 16) := by
    rw [split]
    field_simp
  have above : 2 * ((q : ℚ) * den) ≤ 2 * num + den := by exact_mod_cast above
  have below : 2 * (num : ℚ) ≤ 2 * (q * den) + den := by exact_mod_cast below
  have high : 2 * value ⟨q, lead - 16⟩ ≤ 2 * magnitude x.units + 10 ^ (lead - 16) := by
    refine le_of_mul_le_mul_right ?_ posQ
    calc 2 * value ⟨q, lead - 16⟩ * den = 2 * (q * den) * 10 ^ (lead - 16) := by
          rw [value]
          ring
      _ ≤ (2 * num + den) * 10 ^ (lead - 16) := mul_le_mul_of_nonneg_right above (le_of_lt place)
      _ = (2 * magnitude x.units + 10 ^ (lead - 16)) * den := by
          linear_combination (-2) * whole
  have low : 2 * magnitude x.units ≤ 2 * value ⟨q, lead - 16⟩ + 10 ^ (lead - 16) := by
    refine le_of_mul_le_mul_right ?_ posQ
    calc 2 * magnitude x.units * den = 2 * num * 10 ^ (lead - 16) := by
          linear_combination 2 * whole
      _ ≤ (2 * (q * den) + den) * 10 ^ (lead - 16) :=
          mul_le_mul_of_nonneg_right below (le_of_lt place)
      _ = (2 * value ⟨q, lead - 16⟩ + 10 ^ (lead - 16)) * den := by
          rw [value]
          ring
  exact nearest_of_close finite (by linarith) (by linarith)

/-- Seventeen digits are enough for every number. -/
theorem shortest_bounds (tie : Tie) (finite : x.isFinite) (nonzero : ¬ x.isZero) :
    (shortest tie x).digits ≤ 10 ^ 17 ∧
      leadingExponent x.units - 16 ≤ (shortest tie x).exponent ∧
        (shortest tie x).value ≤ 10 ^ (leadingExponent x.units + 1) := by
  obtain ⟨reached, high⟩ := leadingExponent_spec_of_lt (Binary64.units_ne_zero nonzero)
    (Binary64.log2_units_lt finite)
  obtain ⟨c, near, read⟩ := exists_seventeen tie finite reached
  obtain ⟨m, hm, mem⟩ := shortest_mem_neighbours tie le_rfl near read
  exact bounds_of_mem_neighbours hm high mem

/-- The digits of a topmost number start at `10 ^ 308`. -/
theorem Topmost.shortest_bounds (h : Topmost x) (tie : Tie) :
    (shortest tie x).digits ≤ 10 ^ 17 ∧ 292 ≤ (shortest tie x).exponent := by
  have nonzero : ¬ x.isZero := by
    intro zero
    have code : x.code = 0 := eq_of_beq zero
    have high := h.high
    rw [code] at high
    exact absurd high (by decide)
  obtain ⟨digits, exponent, -⟩ := Decimal.shortest_bounds tie h.finite nonzero
  rw [h.leadingExponent] at exponent
  exact ⟨digits, by omega⟩

end Decimal
end BlockCanvas
