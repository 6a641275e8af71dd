/-!
# Binary64

The 64-bit floating-point numbers.  A number is a sign and a `code`, its other 63 bits read as a
natural number.  Codes are ordered as magnitudes are, so comparing numbers is comparing integers,
and the magnitude of every finite number is a whole count of `2 ^ -1074`, its `units`.  Arithmetic
is done on these counts: the exact result is a quotient of two natural numbers, and
`Binary64.nearest` rounds it once, a tie to the even code.

Main statements: `ofBits_bits` and `bits_ofBits`, a number is its 64 bits.
-/

namespace BlockCanvas

/-- A 64-bit floating-point number: its sign bit and the other 63 bits. -/
structure Binary64 where
  negative : Bool
  code : Nat
  code_lt : code < 0x8000000000000000
deriving DecidableEq

namespace Binary64

/-! ### Kinds -/

/-- The code of the infinities; NaNs are above it. -/
def infinityCode : Nat := 0x7FF0000000000000

def isNaN (x : Binary64) : Bool := infinityCode < x.code

def isInfinite (x : Binary64) : Bool := x.code == infinityCode

def isFinite (x : Binary64) : Bool := x.code < infinityCode

def isZero (x : Binary64) : Bool := x.code == 0

def zero (negative : Bool) : Binary64 := ⟨negative, 0, by decide⟩

def infinity (negative : Bool) : Binary64 := ⟨negative, infinityCode, by decide⟩

/-- The NaN that stands for all of them. -/
def nan : Binary64 := ⟨false, infinityCode + 0x8000000000000, by decide⟩

def neg (x : Binary64) : Binary64 := { x with negative := !x.negative }

instance : Neg Binary64 := ⟨neg⟩

/-! ### Bits -/

/-- The 64 bits as a natural number. -/
def bits (x : Binary64) : Nat := (if x.negative then 0x8000000000000000 else 0) + x.code

/-- The number with the given 64 bits. -/
def ofBits (n : Nat) : Binary64 :=
  ⟨n / 0x8000000000000000 % 2 == 1, n % 0x8000000000000000, Nat.mod_lt _ (by decide)⟩

theorem bits_lt (x : Binary64) : x.bits < 0x10000000000000000 := by
  have := x.code_lt
  simp only [bits]
  split <;> omega

theorem ofBits_bits (x : Binary64) : ofBits x.bits = x := by
  obtain ⟨s, c, hc⟩ := x
  have h : (bits ⟨s, c, hc⟩) % 0x8000000000000000 = c := by cases s <;> simp [bits] <;> omega
  have h' : (bits ⟨s, c, hc⟩ / 0x8000000000000000 % 2 == 1) = s := by
    cases s <;> simp [bits] <;> omega
  simp only [ofBits, h, h']

theorem bits_ofBits {n : Nat} (h : n < 0x10000000000000000) : (ofBits n).bits = n := by
  simp only [bits, ofBits, beq_iff_eq]
  split <;> omega

/-! ### Magnitudes -/

/-- How many times `2 ^ -1074` goes into one. -/
def unit : Nat := 1 <<< 1074

/-- The magnitude of a finite number, counted in `2 ^ -1074`. -/
def units (x : Binary64) : Nat :=
  if x.code < 0x10000000000000 then x.code
  else (0x10000000000000 + x.code % 0x10000000000000) <<< (x.code / 0x10000000000000 - 1)

/-- The value of a finite number, counted in `2 ^ -1074`. -/
def signedUnits (x : Binary64) : Int := if x.negative then -(x.units : Int) else x.units

/-- The whole number nearest to a quotient, of two equally near ones the even one. -/
def roundEven (num den : Nat) : Nat :=
  let whole := num / den
  let rest := num % den
  if 2 * rest < den || (2 * rest == den && whole % 2 == 0) then whole else whole + 1

/-- The code of the number nearest to `num / den` times `2 ^ -1074`: above the smallest magnitudes
the last place is worth `2 ^ shift` units, such that 53 binary places are left. -/
def nearestCode (num den : Nat) : Nat :=
  let shift := (num / den).log2 - 52
  shift * 0x10000000000000 + roundEven num (den <<< shift)

/-- The number nearest to `num / den` times `2 ^ -1074`; magnitudes past the largest number go to
infinity. -/
def nearest (negative : Bool) (num den : Nat) : Binary64 :=
  ⟨negative, min (nearestCode num den) infinityCode,
    Nat.lt_of_le_of_lt (Nat.min_le_right ..) (by decide)⟩

/-- The number nearest to a natural number. -/
def ofNat (n : Nat) : Binary64 := nearest false (n * unit) 1

/-! ### Order -/

/-- Numbers that compare as equal have one key, which keeps the numeric order. -/
def key (x : Binary64) : Int := if x.negative then -(x.code : Int) else x.code

/-- Numeric equality: zeros are equal, a NaN equals nothing. -/
def eq (x y : Binary64) : Bool := !x.isNaN && !y.isNaN && x.key == y.key

/-- Numeric order: a NaN is not below or above anything. -/
def lt (x y : Binary64) : Bool := !x.isNaN && !y.isNaN && x.key < y.key

/-- The place in the total order of all bit patterns: negative NaNs first, `-0` before `0`, positive
NaNs last. -/
def rank (x : Binary64) : Int := if x.negative then -(x.code : Int) - 1 else x.code

/-- The larger of two numbers; a NaN gives way to the other one. -/
def max (x y : Binary64) : Binary64 :=
  if x.isNaN then y else if y.isNaN then x else if x.lt y then y else x

/-! ### Arithmetic -/

/-- The sum, rounded once; an exact zero is negative only if both terms are. -/
def add (x y : Binary64) : Binary64 :=
  if x.isNaN || y.isNaN then nan
  else if x.isInfinite then
    if y.isInfinite && x.negative != y.negative then nan else x
  else if y.isInfinite then y
  else
    let sum := x.signedUnits + y.signedUnits
    if sum = 0 then zero (x.negative && y.negative)
    else nearest (sum < 0) sum.natAbs 1

def sub (x y : Binary64) : Binary64 := x.add (-y)

/-- The product, rounded once. -/
def mul (x y : Binary64) : Binary64 :=
  let negative := x.negative != y.negative
  if x.isNaN || y.isNaN then nan
  else if x.isInfinite || y.isInfinite then
    if x.isZero || y.isZero then nan else infinity negative
  else nearest negative (x.units * y.units) unit

/-- The quotient, rounded once. -/
def div (x y : Binary64) : Binary64 :=
  let negative := x.negative != y.negative
  if x.isNaN || y.isNaN then nan
  else if x.isInfinite then
    if y.isInfinite then nan else infinity negative
  else if y.isInfinite then zero negative
  else if y.isZero then
    if x.isZero then nan else infinity negative
  else nearest negative (x.units * unit) y.units

instance : Add Binary64 := ⟨add⟩
instance : Sub Binary64 := ⟨sub⟩
instance : Mul Binary64 := ⟨mul⟩
instance : Div Binary64 := ⟨div⟩

/-- The whole number nearest to a number, of two equally near ones the one farther from zero. -/
def round (x : Binary64) : Binary64 :=
  if x.isFinite then nearest x.negative ((2 * x.units + unit) / (2 * unit) * unit) 1 else x

end Binary64
end BlockCanvas
