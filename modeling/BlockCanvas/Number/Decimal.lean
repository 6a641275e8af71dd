import BlockCanvas.Number.Binary64

/-!
# Decimals

`Decimal.nearest` is the 64-bit number nearest to a decimal, and `Decimal.shortest` the decimal
with the fewest digits that reads back as a given number.  `shortest` tries every candidate by
reading it, so that its result reads back whatever the candidates are.
-/

namespace BlockCanvas

/-- The decimal `digits * 10 ^ exponent`. -/
structure Decimal where
  digits : Nat
  exponent : Int
deriving DecidableEq

namespace Decimal

/-- How many decimal digits a number has. -/
def length (n : Nat) : Nat := (Nat.toDigits 10 n).length

/-- The number nearest to a decimal.  A decimal of at least `10 ^ 310` is past every number and one
below `10 ^ -330` is less than half the least, so their powers of ten are never formed. -/
def nearest (negative : Bool) (d : Decimal) : Binary64 :=
  let size := d.exponent + length d.digits
  if d.digits = 0 then .zero negative
  else if 310 < size then .infinity negative
  else if size < -330 then .zero negative
  else match d.exponent with
    | .ofNat e => .nearest negative (d.digits * Nat.pow 10 e * Binary64.unit) 1
    | .negSucc e => .nearest negative (d.digits * Binary64.unit) (Nat.pow 10 (e + 1))

/-- Which of two equally near decimals is taken. -/
inductive Tie where
  | toEven
  | upward
deriving DecidableEq

/-- The quotient of a magnitude and `10 ^ exponent`. -/
def quotient (units : Nat) : Int → Nat × Nat
  | .ofNat e => (units, Binary64.unit * Nat.pow 10 e)
  | .negSucc e => (units * Nat.pow 10 (e + 1), Binary64.unit)

/-- The multiples of `10 ^ exponent` next to a magnitude, the nearer one first. -/
def neighbours (tie : Tie) (units : Nat) (exponent : Int) : List Decimal :=
  let (num, den) := quotient units exponent
  let below : Decimal := ⟨num / den, exponent⟩
  let above : Decimal := ⟨num / den + 1, exponent⟩
  let rest := num % den
  let lower := 2 * rest < den ||
    (2 * rest == den && match tie with
      | .toEven => num / den % 2 == 0
      | .upward => false)
  if lower then [below, above] else [above, below]

/-- Whether a magnitude is at least `10 ^ exponent`. -/
def reaches (units : Nat) (exponent : Int) : Bool :=
  let (num, den) := quotient units exponent
  den ≤ num

/-- The exponent of the first digit of a positive magnitude, found from its binary length: a binary
place is worth about `1233 / 4096` of a decimal one. -/
def leadingExponent (units : Nat) : Int :=
  let guess := ((units.log2 : Int) - 1074) * 1233 / 4096
  if reaches units (guess + 1) then guess + 1
  else if reaches units guess then guess
  else guess - 1

/-- The exact value of a magnitude, with as many digits as it takes. -/
def exact (units : Nat) : Decimal := ⟨units * Nat.pow 5 1074, -1074⟩

/-- The decimal with the fewest digits that reads back as the positive number `x`, and of those the
nearest to it; seventeen digits are always enough. -/
def shortest (tie : Tie) (x : Binary64) : Decimal :=
  let lead := leadingExponent x.units
  let found := (List.range 17).findSome? fun (n : Nat) =>
    (neighbours tie x.units (lead - n)).find? fun d => nearest x.negative d == x
  found.getD (exact x.units)

/-- A decimal without the zeros at its end; `fuel` bounds their number. -/
def strip : (fuel : Nat) → Decimal → Decimal
  | 0, d => d
  | fuel + 1, d =>
    if d.digits ≠ 0 ∧ d.digits % 10 = 0 then strip fuel ⟨d.digits / 10, d.exponent + 1⟩ else d

/-- A decimal without the zeros at its end. -/
def normalize (d : Decimal) : Decimal := strip (length d.digits) d

end Decimal
end BlockCanvas
