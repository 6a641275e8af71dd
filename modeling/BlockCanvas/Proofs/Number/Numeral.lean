import Mathlib.Tactic.IntervalCases
import BlockCanvas.Number.Numeral
import BlockCanvas.Proofs.Number.Decimal
import BlockCanvas.Proofs.Text.Search

/-!
# Numerals

A layout changes how the digits of a number are spread over a numeral, never their value
(`value_decimal_ofDigits`), so the numeral of a finite number reads back as this number
(`nearest_numeral`).  Its parts are digits, and only a zero starts with a zero: `Strict`.
-/

namespace BlockCanvas

/-! ### Digits -/

namespace Text

/-- One digit or more, and nothing else. -/
structure IsDigits (s : Text) : Prop where
  ne_nil : s ≠ []
  isDigit : ∀ c ∈ s, c.isDigit

instance : DecidablePred IsDigits := fun s =>
  decidable_of_iff (s ≠ [] ∧ s.all Char.isDigit)
    ⟨fun h => ⟨h.1, List.all_eq_true.1 h.2⟩, fun h => ⟨h.1, List.all_eq_true.2 h.2⟩⟩

theorem isDigits_ofNat (n : Nat) : IsDigits (ofNat n) :=
  ⟨Nat.toDigits_ne_nil, fun _ => Nat.isDigit_of_mem_toDigits (by decide) (by decide)⟩

theorem head?_ofNat_ne (n : Nat) (h : n ≠ 0) : (ofNat n).head? ≠ some '0' := by
  unfold ofNat
  induction n using Nat.strongRecOn with
  | ind n ih =>
    by_cases small : n < 10
    · rw [Nat.toDigits_of_lt_base small]
      interval_cases n <;> simp_all
    · rw [Nat.toDigits_of_base_le (by decide) (by omega),
        List.head?_append_of_ne_nil _ Nat.toDigits_ne_nil]
      exact ih (n / 10) (by omega) (by omega)

theorem decimalValue_append (s t : Text) :
    decimalValue (s ++ t) = decimalValue s * 10 ^ t.length + decimalValue t := by
  rw [decimalValue, Nat.ofDigitChars_append, Nat.ofDigitChars_eq_ofDigitChars_zero, Nat.mul_comm]
  rfl

theorem decimalValue_zeros (n : Nat) : decimalValue (List.replicate n '0') = 0 := by
  simp [decimalValue]

/-- The digits that are taken end where no digit follows. -/
theorem takeDigits_append {digits rest : Text} (h : ∀ c ∈ digits, c.isDigit)
    (ends : ∀ c ∈ rest.head?, ¬c.isDigit) : takeDigits (digits ++ rest) = (digits, rest) :=
  span_eq_iff.2 ⟨rfl, h, ends⟩

theorem takeDigits_spec (s : Text) :
    ∃ digits rest, takeDigits s = (digits, rest) ∧ s = digits ++ rest ∧
      (∀ c ∈ digits, c.isDigit) ∧ ∀ c ∈ rest.head?, ¬c.isDigit :=
  ⟨_, _, rfl, span_eq_iff.1 rfl⟩

end Text

/-! ### Strict numerals -/

/-- A numeral with digits in all of its parts, whose whole part starts with a zero only if it is
one. -/
structure Numeral.Strict (n : Numeral) : Prop where
  whole : Text.IsDigits n.whole
  leading : n.whole = ['0'] ∨ n.whole.head? ≠ some '0'
  fraction : ∀ digits ∈ n.fraction, Text.IsDigits digits
  exponent : ∀ mark ∈ n.exponent, Text.IsDigits mark.2

namespace Layout

variable (l : Layout) (negative : Bool) {digits : Text}

theorem isDigits_take (h : Text.IsDigits digits) (n : Nat) (zeros : Nat) :
    Text.IsDigits (digits.take (n + 1) ++ List.replicate zeros '0') := by
  obtain ⟨c, rest, rfl⟩ := List.exists_cons_of_ne_nil h.ne_nil
  refine ⟨by simp, fun d hd => ?_⟩
  rcases List.mem_append.1 hd with hd | hd
  · exact h.isDigit d (List.mem_of_mem_take hd)
  · obtain rfl := List.eq_of_mem_replicate hd
    decide

theorem isDigits_drop (h : Text.IsDigits digits) {n : Nat} (some : digits.drop n ≠ []) :
    Text.IsDigits (digits.drop n) := by
  refine ⟨some, ?_⟩
  intro c hc
  exact h.isDigit c (List.mem_of_mem_drop hc)

theorem strict_ofDigits (h : Text.IsDigits digits) {lead : Int}
    (leading : digits = ['0'] ∧ lead = 0 ∨ digits.head? ≠ some '0') :
    (l.ofDigits negative digits lead).Strict := by
  obtain ⟨c, rest, rfl⟩ := List.exists_cons_of_ne_nil h.ne_nil
  unfold ofDigits
  split
  · split
    · next below =>
      refine ⟨⟨by simp, by simp⟩, .inl rfl, ?_, by simp⟩
      rintro _ ⟨⟩
      refine ⟨by simp, fun d hd => ?_⟩
      obtain hd | hd := List.mem_append.1 hd
      · obtain rfl := List.eq_of_mem_replicate hd
        decide
      · exact h.isDigit d hd
    · next above plain =>
      refine ⟨isDigits_take h above _, ?_, ?_, by simp⟩
      · obtain ⟨zero, place⟩ | nonzero := leading
        · obtain rfl : above = 0 := by simpa using place
          cases zero
          exact .inl rfl
        · exact .inr (by simpa using nonzero)
      · intro digits hd
        dsimp only at hd
        split at hd
        · next some =>
          cases hd
          exact isDigits_drop h some
        · split at hd
          · cases hd
            exact ⟨by simp, by simp⟩
          · cases hd
  · refine ⟨by simpa using isDigits_take h 0 0, ?_, ?_, ?_⟩
    · obtain ⟨zero, -⟩ | nonzero := leading
      · cases zero
        exact .inl rfl
      · exact .inr (by simpa using nonzero)
    · intro digits hd
      dsimp only at hd
      split at hd
      · next some =>
        cases hd
        exact isDigits_drop h some
      · cases hd
    · rintro _ ⟨⟩
      exact Text.isDigits_ofNat _

theorem decimalValue_append_zeros (digits : Text) (zeros : Nat) :
    Text.decimalValue (digits ++ List.replicate zeros '0') =
      Text.decimalValue digits * 10 ^ zeros := by
  rw [Text.decimalValue_append, Text.decimalValue_zeros, List.length_replicate, Nat.add_zero]

/-- A layout only adds zeros to the digits. -/
theorem decimal_ofDigits (h : digits ≠ []) (lead : Int) :
    ∃ zeros : Nat, (l.mostPlain < lead → zeros = 0) ∧
      (l.ofDigits negative digits lead).decimal =
        ⟨Text.decimalValue digits * 10 ^ zeros, lead + 1 - digits.length - zeros⟩ := by
  have pos := List.length_pos_iff.2 h
  unfold ofDigits
  split
  · split
    · next below plain =>
      refine ⟨0, fun _ => rfl, ?_⟩
      have value : Text.decimalValue ('0' :: (List.replicate below '0' ++ digits)) =
          Text.decimalValue digits := by
        rw [← List.cons_append, ← List.replicate_succ, Text.decimalValue_append,
          Text.decimalValue_zeros, Nat.zero_mul, Nat.zero_add]
      simp [Numeral.decimal, value, Int.negSucc_eq]
      omega
    · next above plain =>
      dsimp only
      by_cases some : digits.drop (above + 1) = []
      · have short : digits.length ≤ above + 1 := List.drop_eq_nil_iff.1 some
        rw [if_neg (not_not_intro some), List.take_of_length_le short]
        split
        · refine ⟨above + 1 - digits.length + 1, by omega, ?_⟩
          simp only [Numeral.decimal, Option.getD_some, List.append_assoc]
          rw [← List.replicate_succ', decimalValue_append_zeros]
          congr 1
          simp
          omega
        · refine ⟨above + 1 - digits.length, by omega, ?_⟩
          simp only [Numeral.decimal, Option.getD_none, List.append_nil, decimalValue_append_zeros]
          congr 1
          simp
          omega
      · have long : above + 1 < digits.length := by
          rw [List.drop_eq_nil_iff] at some
          omega
        refine ⟨0, fun _ => rfl, ?_⟩
        rw [if_pos some, Nat.sub_eq_zero_of_le (Nat.le_of_lt long), List.replicate_zero,
          List.append_nil]
        simp only [Numeral.decimal, Option.getD_some, List.take_append_drop, Nat.pow_zero,
          Nat.mul_one, List.length_drop]
        congr 1
        simp
        omega
  · refine ⟨0, fun _ => rfl, ?_⟩
    have fraction : (if digits.drop 1 ≠ [] then some (digits.drop 1) else none).getD [] =
        digits.drop 1 := by
      split
      · rfl
      · next none => exact (not_not.1 none).symm
    simp only [Numeral.decimal, fraction, List.take_append_drop, Nat.pow_zero, Nat.mul_one,
      List.length_drop]
    congr 1
    by_cases below : lead < 0
    · simp only [below, decide_true, Text.decimalValue_ofNat]
      omega
    · simp only [below, decide_false, Text.decimalValue_ofNat]
      omega

/-- A layout keeps the value of the digits. -/
theorem value_decimal_ofDigits (h : digits ≠ []) (lead : Int) :
    (l.ofDigits negative digits lead).decimal.value =
      Text.decimalValue digits * 10 ^ (lead + 1 - digits.length) := by
  obtain ⟨zeros, -, e⟩ := l.decimal_ofDigits negative h lead
  have place : (zeros : Int) + (lead + 1 - digits.length - zeros) = lead + 1 - digits.length := by
    omega
  rw [e, Decimal.value]
  push_cast
  rw [mul_assoc, ← zpow_natCast, ← zpow_add₀ (by decide), place]

/-! ### The numeral of a number -/

theorem negative_ofDigits (digits : Text) (lead : Int) :
    (l.ofDigits negative digits lead).negative = negative := by
  unfold ofDigits
  split
  · split <;> rfl
  · rfl

theorem numeral_of_isZero {x : Binary64} (zero : x.isZero) :
    l.numeral x = l.ofDigits x.negative ['0'] 0 := by
  rw [numeral, if_pos zero]

theorem value_decimal_numeral {x : Binary64} (nonzero : ¬x.isZero) :
    (l.numeral x).decimal.value = (Decimal.shortest l.tie x).value := by
  rw [numeral, if_neg nonzero]
  dsimp only
  rw [value_decimal_ofDigits _ _ (Text.isDigits_ofNat _).ne_nil, Text.decimalValue_ofNat,
    Int.sub_add_cancel, Int.add_sub_cancel, ← Decimal.value_normalize (Decimal.shortest _ _)]
  rfl

theorem negative_numeral (x : Binary64) : (l.numeral x).negative = x.negative := by
  unfold numeral
  split <;> exact l.negative_ofDigits ..

variable {x : Binary64} (h : x.isFinite)
include h

theorem digits_shortest_ne_zero (tie : Decimal.Tie) (nonzero : ¬x.isZero) :
    (Decimal.shortest tie x).normalize.digits ≠ 0 := by
  intro zero
  have value : (Decimal.shortest tie x).normalize.value = 0 := by simp [Decimal.value, zero]
  rw [Decimal.value_normalize] at value
  have noDigits : (Decimal.shortest tie x).digits = 0 := by
    exact_mod_cast (mul_eq_zero.1 value).resolve_right (zpow_ne_zero _ (by decide))
  have back := Decimal.nearest_shortest tie h
  simp only [Decimal.nearest, noDigits, if_pos] at back
  rw [← back] at nonzero
  exact nonzero rfl

theorem strict_numeral : (l.numeral x).Strict := by
  by_cases zero : x.isZero
  · rw [l.numeral_of_isZero zero]
    exact l.strict_ofDigits _ ⟨by simp, by simp⟩ (.inl ⟨rfl, rfl⟩)
  · rw [numeral, if_neg zero]
    exact l.strict_ofDigits _ (Text.isDigits_ofNat _)
      (.inr (Text.head?_ofNat_ne _ (digits_shortest_ne_zero h l.tie zero)))

/-- The numeral of a finite number reads back as this number. -/
theorem nearest_numeral : (l.numeral x).nearest = x := by
  rw [Numeral.nearest, l.negative_numeral]
  by_cases zero : x.isZero
  · obtain ⟨zeros, -, e⟩ := l.decimal_ofDigits x.negative (show ['0'] ≠ [] by simp) 0
    have noDigits : (l.numeral x).decimal.digits = 0 := by
      rw [l.numeral_of_isZero zero, e]
      simp [Text.decimalValue, Nat.ofDigitChars_cons]
    rw [Decimal.nearest, if_pos noDigits]
    obtain ⟨negative, code, limit⟩ := x
    obtain rfl : code = 0 := by simpa [Binary64.isZero] using zero
    rfl
  · rw [Decimal.nearest_congr _ (l.value_decimal_numeral zero)]
    exact Decimal.nearest_shortest _ h

end Layout
end BlockCanvas
