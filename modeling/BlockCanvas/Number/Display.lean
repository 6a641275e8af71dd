import BlockCanvas.Number.Numeral
import BlockCanvas.Text.Line

/-!
# Displayed numbers

How programs show numbers, `display`, and read them, `literal?`.
-/

namespace BlockCanvas
namespace Binary64

/-- Programs show numbers from `1e-6` up to below `1e21` without an exponent and whole numbers
without a point; of two equally near decimals the larger one is shown. -/
def shown : Layout := ⟨-6, 20, false, .upward⟩

/-- The text of a number in a program; both zeros are `0`. -/
def display (x : Binary64) : Text :=
  if x.isNaN then "NaN".toList
  else if x.isInfinite then Numeral.signText x.negative ++ "Infinity".toList
  else if x.isZero then ['0']
  else (shown.numeral x).text

/-- The radix that a marker of two characters announces. -/
def radixOf? : Char → Char → Option Nat
  | '0', 'x' | '0', 'X' => some 16
  | '0', 'o' | '0', 'O' => some 8
  | '0', 'b' | '0', 'B' => some 2
  | _, _ => none

/-- The whole number after a radix marker: at least one digit, after an optional plus, and a value
below `2 ^ 64`. -/
def radixLiteral? (radix : Nat) (s : Text) : Option Binary64 :=
  let digits := match s with
    | '+' :: s => s
    | s => s
  if digits = [] then none
  else match Text.valueIn? radix digits with
    | some n => if n < 0x10000000000000000 then some (ofNat n) else none
    | none => none

/-- The number that a text without surrounding blanks is. -/
def trimmedLiteral? (s : Text) : Option Binary64 :=
  if s = [] then some (zero false)
  else if s = "Infinity".toList ∨ s = "+Infinity".toList then some (infinity false)
  else if s = "-Infinity".toList then some (infinity true)
  else match s with
    | a :: b :: rest =>
      match radixOf? a b with
      | some radix => radixLiteral? radix rest
      | none => (Numeral.scan? s).map Numeral.nearest
    | _ => (Numeral.scan? s).map Numeral.nearest

/-- The number that a text is, if it is one: blank text is zero; otherwise a decimal numeral,
`Infinity` with an optional sign, or a whole number after a radix marker. -/
def literal? (s : Text) : Option Binary64 := trimmedLiteral? (Text.trim s)

end Binary64
end BlockCanvas
