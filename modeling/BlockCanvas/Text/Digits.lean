import BlockCanvas.Text.Basic

/-!
# Digits

Numbers as the digits that stand for them, and the ASCII characters that names are made of.  Main
statement: `decimalValue_ofNat`, the decimal digits of a number stand for it.
-/

namespace BlockCanvas
namespace Text

/-- The decimal digits of a number. -/
def ofNat (n : Nat) : Text := Nat.toDigits 10 n

/-- The number that decimal digits stand for. -/
def decimalValue (digits : Text) : Nat := Nat.ofDigitChars 10 digits 0

theorem decimalValue_ofNat (n : Nat) : decimalValue (ofNat n) = n :=
  Nat.ofDigitChars_toDigits (by decide) (by decide)

/-- The value of a character as a digit, where letters of either case count on from ten. -/
def digitValue? (c : Char) : Option Nat :=
  if c.isDigit then some (c.toNat - '0'.toNat)
  else if c.isLower then some (c.toNat - 'a'.toNat + 10)
  else if c.isUpper then some (c.toNat - 'A'.toNat + 10)
  else none

/-- The number that digits of the given radix stand for, if each of them is one. -/
def valueIn? (radix : Nat) (digits : Text) : Option Nat :=
  digits.foldlM (fun n c => do
    let d ← digitValue? c
    if d < radix then some (n * radix + d) else none) 0

/-- Letters, digits and the underscore of ASCII: the characters of names. -/
def isWordChar (c : Char) : Bool := c.isAlphanum || c == '_'

/-- The digits at the head of a text, and the rest of it. -/
def takeDigits (s : Text) : Text × Text := (s.takeWhile Char.isDigit, s.dropWhile Char.isDigit)

/-- The word at the head of a text, and the rest of it. -/
def takeWord (s : Text) : Text × Text := (s.takeWhile isWordChar, s.dropWhile isWordChar)

end Text
end BlockCanvas
