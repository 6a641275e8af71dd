import BlockCanvas.Document.Json.Reader
import BlockCanvas.Proofs.Number.Numeral
import BlockCanvas.Proofs.Number.Shortest

/-!
# Numbers in documents

Reading a number in a document multiplies a significand by a power of ten in floating point, which
may overflow although the number itself is finite.  Main statements: `ofNumeral?_numeral_isSome`,
what is written for a finite number never does, and `isFinite_toFloat`, what is read is finite.

The significand of a numeral has up to twenty digits.  Below `Decimal.upperHalf` there is room
enough for all of them; from there on, the seventeen digits that are written do not reach the next
number after the largest one.
-/

namespace BlockCanvas
namespace Json
namespace Amount

/-! ### Significands -/

/-- A significand times the power of ten that is left is no more than the number whose digits it
takes in. -/
theorem absorb_bounds (digits : Text) (s : Nat) :
    (absorb s digits).1 ≤ digits.length ∧
      (absorb s digits).2.1 * 10 ^ (digits.length - (absorb s digits).1) ≤
        Nat.ofDigitChars 10 digits s ∧
      (s ≤ maxSignificand → (absorb s digits).2.1 ≤ maxSignificand) := by
  induction digits generalizing s with
  | nil => simp [absorb]
  | cons c digits ih =>
    rw [absorb]
    dsimp only
    split
    · refine ⟨Nat.zero_le _, ?_, id⟩
      rw [Nat.ofDigitChars_eq_ofDigitChars_zero, Nat.mul_comm, Nat.sub_zero]
      exact Nat.le_add_right ..
    · next room =>
      rcases ih (s * 10 + (c.toNat - '0'.toNat)) with ⟨taken, bound, limit⟩
      refine ⟨Nat.succ_le_succ taken, ?_, fun _ => limit (Nat.not_lt.1 room)⟩
      rw [List.length_cons, Nat.add_sub_add_right, Nat.ofDigitChars_cons, Nat.mul_comm 10]
      exact bound

theorem le_ofDigitChars (digits : Text) (s : Nat) : s ≤ Nat.ofDigitChars 10 digits s := by
  rw [Nat.ofDigitChars_eq_ofDigitChars_zero]
  have : s ≤ 10 ^ digits.length * s := Nat.le_mul_of_pos_left s (Nat.pow_pos (by decide))
  omega

/-- Digits of a number that is not too large are all taken in. -/
theorem absorb_eq (digits : Text) {s : Nat} (h : Nat.ofDigitChars 10 digits s ≤ maxSignificand) :
    absorb s digits = (digits.length, Nat.ofDigitChars 10 digits s, false) := by
  induction digits generalizing s with
  | nil => rfl
  | cons c digits ih =>
    rw [Nat.ofDigitChars_cons, Nat.mul_comm 10] at h
    have grown : s * 10 + (c.toNat - '0'.toNat) ≤ maxSignificand :=
      Nat.le_trans (le_ofDigitChars digits _) h
    rw [absorb, Nat.ofDigitChars_cons, Nat.mul_comm 10]
    dsimp only
    rw [if_neg (Nat.not_lt.2 grown), ih h]
    rfl

/-! ### Powers of ten -/

-- irreducible: powers with these exponents are too large to be computed by unification

/-- The exponent of the last power of ten that is finite. -/
@[irreducible] def lastPower : Nat := 308

/-- The exponent from which on the largest significands are looked at. -/
@[irreducible] def firstTop : Nat := 288

theorem lastPower_eq : lastPower = 308 := by rw [lastPower]

theorem firstTop_le_lastPower : firstTop ≤ lastPower := by decide +kernel

/-- Significands up to `most` times powers of ten do not overflow below `bound`. -/
def Scales (most bound : Nat) : Prop :=
  ∀ s e, s ≤ most → s * 10 ^ e < bound → e ≤ lastPower →
    (Binary64.ofNat s * Binary64.ofNat (10 ^ e)).isFinite

/-- The largest significand for a power of ten. -/
def top (most bound e : Nat) : Binary64 := .ofNat (min most ((bound - 1) / 10 ^ e))

/-- Whether the largest significands do not overflow, for the last powers of ten. -/
def topsFinite (most bound : Nat) : Bool :=
  (List.range (lastPower + 1 - firstTop)).all fun i =>
    let e := firstTop + i
    (top most bound e).isFinite && (Binary64.ofNat (10 ^ e)).isFinite &&
      (top most bound e * Binary64.ofNat (10 ^ e)).isFinite

/-- It is enough to look at the largest significands for the largest powers of ten. -/
theorem scales_of_tops {most bound : Nat} (h : topsFinite most bound)
    (room : most * 10 ^ firstTop < bound) : Scales most bound := by
  intro s e hs product he
  have order := firstTop_le_lastPower
  obtain ⟨i, hi⟩ : ∃ i, max e firstTop = firstTop + i := ⟨max e firstTop - firstTop, by omega⟩
  have tops := List.all_eq_true.1 h i (List.mem_range.2 (by omega))
  simp only [Bool.and_eq_true] at tops
  have fits : s * 10 ^ (firstTop + i) < bound := by
    obtain small | large := Nat.le_total e firstTop
    · obtain rfl : i = 0 := by omega
      exact Nat.lt_of_le_of_lt (Nat.mul_le_mul_right _ hs) room
    · rwa [← hi, Nat.max_eq_left large]
  refine Binary64.isFinite_mul_of_le tops.1.1 tops.1.2 (Binary64.code_ofNat_mono ?_)
    (Binary64.code_ofNat_mono (Nat.pow_le_pow_right (by decide) (by omega))) tops.2
  rw [Nat.le_min, Nat.le_div_iff_mul_le (Nat.pow_pos (by decide))]
  omega

theorem scales_lower : Scales maxSignificand (Decimal.upperHalf.units / Binary64.unit) :=
  scales_of_tops (by decide +kernel) (by decide +kernel)

theorem scales_upper : Scales (10 ^ 17) (Binary64.largest.units / Binary64.unit) :=
  scales_of_tops (by decide +kernel) (by decide +kernel)

section

variable {most bound : Nat} (scales : Scales most bound) (limit : bound ≤ 10 ^ (lastPower + 1))
include scales limit

theorem scale?_isSome {s : Nat} {e : Int} (hs : s ≤ most) (h : (s : ℚ) * 10 ^ e < bound) :
    (scale? s e).isSome := by
  unfold scale?
  cases e with
  | negSucc below => rfl
  | ofNat above =>
    rw [Int.ofNat_eq_natCast, zpow_natCast] at h
    have product : s * 10 ^ above < bound := by exact_mod_cast h
    dsimp only
    split
    · next near =>
      have finite := Binary64.code_lt_infinityCode (scales s above hs product (lastPower_eq ▸ near))
      rw [if_neg (by simp [Binary64.isInfinite, Nat.ne_of_lt finite])]
      rfl
    · next far =>
      -- only a zero keeps below the bound
      have zero : s = 0 := by
        by_contra pos
        have beyond : lastPower + 1 ≤ above := lastPower_eq ▸ Nat.not_le.1 far
        have : 10 ^ (lastPower + 1) ≤ s * 10 ^ above :=
          Nat.le_trans (Nat.pow_le_pow_right (Nat.zero_lt_succ 9) beyond)
            (Nat.le_mul_of_pos_left _ (Nat.pos_of_ne_zero pos))
        omega
      have isZero : (Binary64.ofNat s).isZero := by
        rw [zero]
        decide +kernel
      rw [if_pos isZero]
      rfl

/-- The exponent that is written in a numeral. -/
def writtenExponent : Option (Bool × Text) → Int
  | some (true, digits) => -(Text.decimalValue digits : Int)
  | some (false, digits) => Text.decimalValue digits
  | none => 0

theorem magnitude?_isSome {s : Nat} {shift : Int} {exponent : Option (Bool × Text)}
    (hs : s ≤ most) (hshift : shift ≤ 0) (readable : writtenExponent exponent ≤ maxExponent)
    (h : (s : ℚ) * 10 ^ (shift + writtenExponent exponent) < bound) :
    (magnitude? s shift exponent).isSome := by
  cases exponent with
  | none => exact scale?_isSome scales limit hs (by simpa [writtenExponent] using h)
  | some mark =>
    obtain ⟨below, digits⟩ := mark
    simp only [magnitude?]
    split
    · next far =>
      cases below with
      | true =>
        rw [if_neg (by simp)]
        rfl
      | false =>
        simp only [writtenExponent] at readable
        omega
    · next near =>
      have written : (if below = true then shift - (Text.decimalValue digits : Int)
          else shift + Text.decimalValue digits) =
            shift + writtenExponent (some (below, digits)) := by
        cases below <;> simp [writtenExponent, Int.sub_eq_add_neg]
      rw [written]
      by_cases low : -(maxExponent : Int) - 1 ≤ shift + writtenExponent (some (below, digits))
      · have same : clamp (shift + writtenExponent (some (below, digits))) =
            shift + writtenExponent (some (below, digits)) := by
          unfold clamp
          omega
        rw [same]
        exact scale?_isSome scales limit hs h
      · have least : clamp (shift + writtenExponent (some (below, digits))) =
            .negSucc maxExponent := by
          unfold clamp
          omega
        rw [least]
        rfl

omit scales limit in
theorem decimal_eq (n : Numeral) :
    n.decimal = ⟨Text.decimalValue (n.whole ++ n.fraction.getD []),
      writtenExponent n.exponent - (n.fraction.getD []).length⟩ := by
  obtain ⟨negative, whole, fraction, exponent⟩ := n
  obtain _ | ⟨_ | _, digits⟩ := exponent <;> rfl

/-- A numeral whose value is below the bound is read. -/
theorem float?_isSome {n : Numeral} (whole : Text.decimalValue n.whole ≤ maxSignificand)
    (digits : min maxSignificand n.decimal.digits ≤ most)
    (readable : writtenExponent n.exponent ≤ maxExponent) (value : n.decimal.value < bound) :
    (float? n).isSome := by
  rw [decimal_eq] at digits value
  rw [Decimal.value] at value
  dsimp only at digits value
  rw [Text.decimalValue, Nat.ofDigitChars_append] at digits value
  have first : absorb 0 n.whole = (n.whole.length, Text.decimalValue n.whole, false) :=
    absorb_eq n.whole whole
  obtain ⟨taken, kept, small⟩ :=
    absorb_bounds (n.fraction.getD []) (Text.decimalValue n.whole)
  simp only [float?, first, Nat.sub_self]
  generalize n.fraction.getD [] = fraction at *
  generalize absorb (Text.decimalValue n.whole) fraction = absorbed at *
  obtain ⟨places, s, left⟩ := absorbed
  dsimp only at taken kept small
  rw [Option.isSome_map]
  have all : s ≤ Nat.ofDigitChars 10 fraction (Text.decimalValue n.whole) :=
    Nat.le_trans (Nat.le_mul_of_pos_right s (Nat.pow_pos (Nat.zero_lt_succ 9))) kept
  refine magnitude?_isSome scales limit
    (Nat.le_trans (Nat.le_min.2 ⟨small whole, all⟩) digits) (by omega) readable ?_
  refine lt_of_le_of_lt ?_ value
  have place : ((0 : Nat) : Int) - places + writtenExponent n.exponent =
      (fraction.length - places : Nat) + (writtenExponent n.exponent - fraction.length) := by
    omega
  rw [place, zpow_add₀ (by decide), ← mul_assoc, zpow_natCast]
  refine mul_le_mul_of_nonneg_right ?_ (by positivity)
  exact_mod_cast kept

end

/-! ### Written numbers -/

theorem ofDigitChars_lt {s : Text} (h : ∀ c ∈ s, c.isDigit) (init : Nat) :
    Nat.ofDigitChars 10 s init < (init + 1) * 10 ^ s.length := by
  induction s generalizing init with
  | nil => simp
  | cons c s ih =>
    have digit : c.toNat - '0'.toNat ≤ 9 := by
      have := h c List.mem_cons_self
      simp only [Char.isDigit, Bool.and_eq_true, decide_eq_true_eq] at this
      have : c.toNat ≤ '9'.toNat := this.2
      have : '9'.toNat - '0'.toNat = 9 := rfl
      omega
    rw [Nat.ofDigitChars_cons, List.length_cons]
    calc Nat.ofDigitChars 10 s (10 * init + (c.toNat - '0'.toNat))
        < (10 * init + (c.toNat - '0'.toNat) + 1) * 10 ^ s.length :=
          ih (fun d hd => h d (List.mem_cons_of_mem c hd)) _
      _ ≤ (init + 1) * 10 * 10 ^ s.length := Nat.mul_le_mul_right _ (by omega)
      _ = (init + 1) * 10 ^ (s.length + 1) := by rw [Nat.pow_succ', Nat.mul_assoc]

theorem length_whole_ofDigits_le (negative : Bool) (digits : Text) (lead : Int) :
    (layout.ofDigits negative digits lead).whole.length ≤ 16 := by
  unfold Layout.ofDigits
  split
  · next plain =>
    split
    · simp
    · next above =>
      have : (above : Int) ≤ 15 := plain.2
      simp only [List.length_append, List.length_take, List.length_replicate]
      omega
  · simp only [List.length_take]
    omega

theorem decimalValue_whole_numeral_le {x : Binary64} (h : x.isFinite) :
    Text.decimalValue (layout.numeral x).whole ≤ maxSignificand := by
  have short : (layout.numeral x).whole.length ≤ 16 := by
    unfold Layout.numeral
    split <;> exact length_whole_ofDigits_le ..
  have below := ofDigitChars_lt (layout.strict_numeral h).whole.isDigit 0
  have : (0 + 1) * 10 ^ (layout.numeral x).whole.length ≤ 1 * 10 ^ 16 :=
    Nat.mul_le_mul_left 1 (Nat.pow_le_pow_right (by decide) short)
  have room : 1 * 10 ^ 16 ≤ maxSignificand := by decide
  rw [Text.decimalValue]
  omega

theorem writtenExponent_ofDigits_le (negative : Bool) (digits : Text) (lead : Int) :
    writtenExponent (layout.ofDigits negative digits lead).exponent ≤ max 0 lead := by
  unfold Layout.ofDigits
  split
  · split <;> exact Int.le_max_left ..
  · by_cases below : lead < 0
    · simp only [below, decide_true, writtenExponent, Text.decimalValue_ofNat]
      omega
    · simp only [below, decide_false, writtenExponent, Text.decimalValue_ofNat]
      omega

/-- A numeral written for something below a whole number is below it. -/
theorem value_numeral_lt {x b : Binary64} (h : x.isFinite) (hb : b.isFinite)
    (whole : b.units / Binary64.unit * Binary64.unit = b.units) (lt : x.code < b.code) :
    (layout.numeral x).decimal.value < (b.units / Binary64.unit : Nat) := by
  have back : ((layout.numeral x).decimal.nearest (layout.numeral x).negative) = x :=
    layout.nearest_numeral h
  have below := Decimal.value_lt_of_nearest hb (by rw [back]; exact lt)
  rw [← whole] at below
  push_cast at below
  have pos : (0 : ℚ) < Binary64.unit := by exact_mod_cast Binary64.unit_pos
  exact lt_of_mul_lt_mul_right below (le_of_lt pos)

theorem numeral_of_nonzero {x : Binary64} (nonzero : ¬x.isZero) :
    layout.numeral x =
      let d := (Decimal.shortest .toEven x).normalize
      layout.ofDigits x.negative (Text.ofNat d.digits)
        (d.exponent + Decimal.length d.digits - 1) := by
  rw [Layout.numeral, if_neg nonzero]
  rfl

/-- The written exponent of a number is at most the place of its first digit. -/
theorem writtenExponent_numeral_le {x : Binary64} (h : x.isFinite) (nonzero : ¬x.isZero)
    {bound : Nat} (limit : bound ≤ 10 ^ (lastPower + 1))
    (value : (layout.numeral x).decimal.value < bound) :
    writtenExponent (layout.numeral x).exponent ≤ maxExponent := by
  have first := Decimal.ten_zpow_le_value (Layout.digits_shortest_ne_zero h .toEven nonzero)
  rw [layout.value_decimal_numeral nonzero, ← Decimal.value_normalize] at value
  rw [numeral_of_nonzero nonzero]
  dsimp only
  refine le_trans (writtenExponent_ofDigits_le ..) ?_
  have last : (10 : ℚ) ^ ((Decimal.shortest .toEven x).normalize.exponent +
      Decimal.length (Decimal.shortest .toEven x).normalize.digits - 1) <
        10 ^ ((lastPower + 1 : Nat) : Int) := by
    refine lt_of_le_of_lt first (lt_of_lt_of_le value ?_)
    exact_mod_cast limit
  have := (zpow_lt_zpow_iff_right₀ (by norm_num)).1 last
  have : lastPower + 1 ≤ maxExponent := by decide +kernel
  omega

theorem digits_numeral_le {x : Binary64} (h : Decimal.Topmost x) (nonzero : ¬x.isZero) :
    (layout.numeral x).decimal.digits ≤ 10 ^ 17 := by
  obtain ⟨digits, exponent⟩ := h.shortest_bounds .toEven
  have fewer := Decimal.digits_normalize_le (Decimal.shortest .toEven x)
  have higher := Decimal.exponent_le_normalize (Decimal.shortest .toEven x)
  rw [numeral_of_nonzero nonzero]
  generalize (Decimal.shortest .toEven x).normalize = d at *
  have pos : 0 < Decimal.length d.digits := Nat.length_toDigits_pos
  obtain ⟨zeros, none, e⟩ := layout.decimal_ofDigits x.negative
    (Text.isDigits_ofNat d.digits).ne_nil (d.exponent + Decimal.length d.digits - 1)
  have plain : layout.mostPlain = 15 := rfl
  rw [e, none (by omega), Text.decimalValue_ofNat, Nat.pow_zero, Nat.mul_one]
  exact Nat.le_trans fewer digits

theorem float?_numeral_ends (negative : Bool) :
    (float? (layout.numeral (.zero negative))).isSome ∧
      (float? (layout.numeral { Binary64.largest with negative })).isSome := by
  cases negative <;> decide +kernel

/-- The number that is written for a finite number is read. -/
theorem ofNumeral?_numeral_isSome {x : Binary64} (h : x.isFinite) :
    (ofNumeral? (layout.numeral x)).isSome := by
  suffices (float? (layout.numeral x)).isSome by
    unfold ofNumeral?
    dsimp only
    split
    · split
      · rfl
      · split
        · rfl
        · simpa using this
    · simpa using this
  have limit := Binary64.code_lt_infinityCode h
  have whole := decimalValue_whole_numeral_le h
  by_cases zero : x.code = 0
  · obtain ⟨negative, code, _⟩ := x
    obtain rfl : code = 0 := zero
    exact (float?_numeral_ends negative).1
  by_cases last : x.code = Binary64.largest.code
  · obtain ⟨negative, code, _⟩ := x
    obtain rfl : code = Binary64.largest.code := last
    exact (float?_numeral_ends negative).2
  have nonzero : ¬x.isZero := by simpa [Binary64.isZero] using zero
  by_cases low : x.code < Decimal.upperHalf.code
  · have value := value_numeral_lt h (by decide) (by decide +kernel) low
    have room : Decimal.upperHalf.units / Binary64.unit ≤ 10 ^ (lastPower + 1) := by decide +kernel
    exact float?_isSome scales_lower room whole (Nat.min_le_left ..)
      (writtenExponent_numeral_le h nonzero room value) value
  · have top : x.code < Binary64.largest.code :=
      Nat.lt_of_le_of_ne (Nat.le_sub_one_of_lt limit) last
    have value := value_numeral_lt h (by decide) (by decide +kernel) top
    have room : Binary64.largest.units / Binary64.unit ≤ 10 ^ (lastPower + 1) := by decide +kernel
    have digits := digits_numeral_le ⟨h, Nat.not_lt.1 low⟩ nonzero
    exact float?_isSome scales_upper room whole (Nat.le_trans (Nat.min_le_right ..) digits)
      (writtenExponent_numeral_le h nonzero room value) value

/-! ### Numbers that are read -/

theorem isFinite_ofNat_ten_pow {e : Nat} (h : e ≤ lastPower) :
    (Binary64.ofNat (Nat.pow 10 e)).isFinite :=
  Binary64.isFinite_ofNat_of_le (Nat.pow_le_pow_right (by decide) h) (by decide +kernel)

theorem isFinite_ofNat_significand {s : Nat} (h : s ≤ maxSignificand) :
    (Binary64.ofNat s).isFinite :=
  Binary64.isFinite_ofNat (Nat.lt_succ_of_le h)

/-- One step of a division by a power of ten. -/
theorem isFinite_div_ten_pow {x : Binary64} {e : Nat} (h : x.isFinite) (small : e ≤ 308) :
    (x / Binary64.ofNat (Nat.pow 10 e)).isFinite :=
  Binary64.isFinite_div_ofNat h (Nat.pow_pos (by decide))
    (isFinite_ofNat_ten_pow (lastPower_eq ▸ small))

theorem isFinite_divideBy {x : Binary64} (h : x.isFinite) (power : Nat) :
    (divideBy x power).isFinite := by
  induction x, power using divideBy.induct with
  | case1 x power near =>
    rw [divideBy, if_pos near]
    exact isFinite_div_ten_pow h near
  | case2 x power far zero =>
    rw [divideBy, if_neg far, if_pos zero]
    exact h
  | case3 x power far zero ih =>
    rw [divideBy, if_neg far, if_neg zero]
    apply ih
    apply isFinite_div_ten_pow h
    exact Nat.le_refl _

theorem isFinite_of_scale? {s : Nat} {e : Int} {x : Binary64} (hs : s ≤ maxSignificand)
    (h : scale? s e = some x) : x.isFinite := by
  have start := isFinite_ofNat_significand hs
  unfold scale? at h
  dsimp only at h
  split at h
  · cases h
    exact isFinite_divideBy start _
  · next above =>
    split at h
    · next near =>
      split at h
      · cases h
      · next bounded =>
        cases h
        rw [Binary64.mul_eq_nearest start (isFinite_ofNat_ten_pow (lastPower_eq ▸ near))]
          at bounded ⊢
        -- what is rounded has at most the code of infinity
        refine decide_eq_true (Nat.lt_of_le_of_ne (Nat.min_le_right ..) ?_)
        simpa [Binary64.isInfinite, Binary64.nearest] using bounded
    · split at h
      · cases h
        exact start
      · cases h

theorem isFinite_of_magnitude? {s : Nat} {shift : Int} {exponent : Option (Bool × Text)}
    {x : Binary64} (hs : s ≤ maxSignificand) (h : magnitude? s shift exponent = some x) :
    x.isFinite := by
  unfold magnitude? at h
  split at h
  · exact isFinite_of_scale? hs h
  · dsimp only at h
    split at h
    · split at h
      · cases h
      · cases h
        decide
    · exact isFinite_of_scale? hs h

theorem isFinite_of_float? {n : Numeral} {x : Binary64} (h : float? n = some x) : x.isFinite := by
  have whole := (absorb_bounds n.whole 0).2.2 (Nat.zero_le _)
  have kept := (absorb_bounds (n.fraction.getD []) _).2.2 whole
  obtain ⟨y, read, rfl⟩ := Option.map_eq_some_iff.1 h
  have finite := isFinite_of_magnitude? kept read
  split
  · exact finite
  · exact finite

theorem isFinite_toFloat_whole {i : Int} (h : i.natAbs ≤ maxSignificand) :
    (toFloat (.whole i)).isFinite := by
  show (if i < 0 then -Binary64.ofNat i.natAbs else .ofNat i.natAbs).isFinite
  split
  · exact isFinite_ofNat_significand h
  · exact isFinite_ofNat_significand h

/-- A number in a document is read as a finite number or not at all. -/
theorem isFinite_toFloat {n : Numeral} {a : Amount} (h : ofNumeral? n = some a) :
    a.toFloat.isFinite := by
  have float (h : (float? n).map Amount.float = some a) : a.toFloat.isFinite := by
    obtain ⟨x, hx, rfl⟩ := Option.map_eq_some_iff.1 h
    exact isFinite_of_float? hx
  unfold ofNumeral? at h
  dsimp only at h
  split at h
  · split at h
    · next fits =>
      cases h
      exact isFinite_toFloat_whole fits.2
    · split at h
      · next fits =>
        cases h
        apply isFinite_toFloat_whole
        have : (0x8000000000000000 : Nat) ≤ maxSignificand := by decide
        omega
      · exact float h
  · exact float h

end Amount
end Json
end BlockCanvas
