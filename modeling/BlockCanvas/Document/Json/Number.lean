import BlockCanvas.Document.Json.Token

/-!
# Numbers in documents

The value of a number in a document.  Whole numbers that fit 64 bits are exact.  All others are
read as a significand of at most 64 bits and a power of ten, which is multiplied or divided in
floating point: the result may differ from the nearest number in its last places.
-/

namespace BlockCanvas
namespace Json

/-- The value of a number in a document: a whole number, or a floating-point number. -/
inductive Amount where
  | whole (i : Int)
  | float (x : Binary64)

namespace Amount

/-- The largest significand. -/
def maxSignificand : Nat := 0xFFFFFFFFFFFFFFFF

/-- The largest exponent that is read. -/
def maxExponent : Nat := 0x7FFFFFFF

/-- How many digits, from the first on, a significand takes in without growing too large, the
significand with them, and whether digits are left. -/
def absorb (significand : Nat) : Text → Nat × Nat × Bool
  | [] => (0, significand, false)
  | c :: digits =>
    let grown := significand * 10 + (c.toNat - '0'.toNat)
    if maxSignificand < grown then (0, significand, true)
    else let (taken, s, left) := absorb grown digits; (taken + 1, s, left)

/-- A number divided by `10 ^ power`, in steps of at most `10 ^ 308`. -/
def divideBy (x : Binary64) (power : Nat) : Binary64 :=
  if power ≤ 308 then x / .ofNat (Nat.pow 10 power)
  else if x.isZero then x
  else divideBy (x / .ofNat (Nat.pow 10 308)) (power - 308)
termination_by power

/-- A significand times a power of ten, if it is not too large. -/
def scale? (significand : Nat) (exponent : Int) : Option Binary64 :=
  let x := Binary64.ofNat significand
  match exponent with
  | .negSucc below => some (divideBy x (below + 1))
  | .ofNat above =>
    if above ≤ 308 then
      let y := x * .ofNat (Nat.pow 10 above)
      if y.isInfinite then none else some y
    else if x.isZero then some x else none

/-- An exponent within the range of 32 bits. -/
def clamp (exponent : Int) : Int := max (-(maxExponent : Int) - 1) (min exponent maxExponent)

/-- The magnitude of a significand times the written exponent and the one from the digits around
the point.  An exponent that is too large to read stands for zero if it is negative or the
significand is zero, and for no number otherwise. -/
def magnitude? (significand : Nat) (shift : Int) (exponent : Option (Bool × Text)) :
    Option Binary64 :=
  match exponent with
  | none => scale? significand shift
  | some (below, digits) =>
    let e := Text.decimalValue digits
    if maxExponent < e then
      if significand ≠ 0 ∧ !below then none else some (.zero false)
    else scale? significand (clamp (if below then shift - e else shift + e))

/-- The floating-point number that a numeral is read as, if it is not too large.  Digits of the
whole part that the significand cannot take in count as zeros; from the first such digit on, digits
of the fraction are dropped. -/
def float? (n : Numeral) : Option Binary64 :=
  let (taken, significand, _) := absorb 0 n.whole
  let dropped := n.whole.length - taken
  let (places, significand, _) := absorb significand (n.fraction.getD [])
  (magnitude? significand ((dropped : Int) - places) n.exponent).map fun x =>
    if n.negative then -x else x

/-- The value of a numeral, if it is not too large: whole numbers that fit 64 bits are exact, and a
negative zero is a floating-point number. -/
def ofNumeral? (n : Numeral) : Option Amount :=
  let v := Text.decimalValue n.whole
  if n.fraction = none ∧ n.exponent = none then
    if !n.negative ∧ v ≤ maxSignificand then some (.whole v)
    else if n.negative ∧ v ≠ 0 ∧ v ≤ 0x8000000000000000 then some (.whole (-(v : Int)))
    else (float? n).map .float
  else (float? n).map .float

/-- The floating-point number nearest to a value. -/
def toFloat : Amount → Binary64
  | .whole i => if i < 0 then -Binary64.ofNat i.natAbs else .ofNat i.natAbs
  | .float x => x

end Amount
end Json
end BlockCanvas
