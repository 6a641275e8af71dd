import BlockCanvas.Number.Decimal
import BlockCanvas.Text.Digits

/-!
# Numerals

A numeral is a number as it is written: digits, with an optional fraction and exponent.  `scan?`
reads one as people type it, `text` writes one, and a `Layout` says how a number is laid out as a
numeral.
-/

namespace BlockCanvas

/-- A written number; `fraction` and `exponent` are absent or hold the digits after their mark. -/
structure Numeral where
  negative : Bool
  whole : Text
  fraction : Option Text
  exponent : Option (Bool × Text)
deriving DecidableEq

namespace Numeral

/-! ### Writing -/

def signText (negative : Bool) : Text := if negative then ['-'] else []

/-- The text of a numeral; the sign of an exponent is always written. -/
def text (n : Numeral) : Text :=
  signText n.negative ++ n.whole ++
    (match n.fraction with
      | some digits => '.' :: digits
      | none => []) ++
    (match n.exponent with
      | some (below, digits) => 'e' :: (if below then '-' else '+') :: digits
      | none => [])

def ofNat (n : Nat) : Numeral := ⟨false, Text.ofNat n, none, none⟩

/-! ### Reading -/

/-- The sign at the head of a text, and the rest of it. -/
def takeSign : Text → Bool × Text
  | '-' :: s => (true, s)
  | '+' :: s => (false, s)
  | s => (false, s)

/-- The fraction at the head of a text, and the rest of it. -/
def takeFraction : Text → Option Text × Text
  | '.' :: s => let (digits, rest) := Text.takeDigits s; (some digits, rest)
  | s => (none, s)

/-- The exponent that makes up a text: a mark, an optional sign and at least one digit. -/
def exponent? : Text → Option (Option (Bool × Text))
  | [] => some none
  | c :: s =>
    if c = 'e' ∨ c = 'E' then
      let (below, digits) := takeSign s
      if digits ≠ [] ∧ digits.all Char.isDigit then some (some (below, digits)) else none
    else none

/-- The numeral that a text is: an optional sign, digits with an optional point before, between or
after them, and an optional exponent. -/
def scan? (s : Text) : Option Numeral :=
  let (negative, s) := takeSign s
  let (whole, s) := Text.takeDigits s
  let (fraction, s) := takeFraction s
  if whole = [] ∧ fraction.getD [] = [] then none
  else (exponent? s).map fun exponent => ⟨negative, whole, fraction, exponent⟩

/-- The exact value of a numeral without its sign. -/
def decimal (n : Numeral) : Decimal :=
  let fraction := n.fraction.getD []
  let exponent : Int := match n.exponent with
    | some (true, digits) => -(Text.decimalValue digits : Int)
    | some (false, digits) => Text.decimalValue digits
    | none => 0
  ⟨Text.decimalValue (n.whole ++ fraction), exponent - fraction.length⟩

/-- The 64-bit number nearest to a numeral. -/
def nearest (n : Numeral) : Binary64 := n.decimal.nearest n.negative

end Numeral

/-! ### Layouts -/

/-- How finite numbers are laid out: the decimal exponents that are written without an exponent
part, whether whole numbers get a point and a zero, and which of two equally near decimals is
taken. -/
structure Layout where
  leastPlain : Int
  mostPlain : Int
  pointZero : Bool
  tie : Decimal.Tie

namespace Layout

/-- The numeral of a decimal with the given digits, the first of them worth `10 ^ lead`. -/
def ofDigits (l : Layout) (negative : Bool) (digits : Text) (lead : Int) : Numeral :=
  if l.leastPlain ≤ lead ∧ lead ≤ l.mostPlain then
    match lead with
    | .negSucc below => ⟨negative, ['0'], some (List.replicate below '0' ++ digits), none⟩
    | .ofNat above =>
      let fraction := digits.drop (above + 1)
      ⟨negative, digits.take (above + 1) ++ List.replicate (above + 1 - digits.length) '0',
        if fraction ≠ [] then some fraction else if l.pointZero then some ['0'] else none, none⟩
  else
    let fraction := digits.drop 1
    ⟨negative, digits.take 1, if fraction ≠ [] then some fraction else none,
      some (lead < 0, Text.ofNat lead.natAbs)⟩

/-- The numeral of a finite number. -/
def numeral (l : Layout) (x : Binary64) : Numeral :=
  if x.isZero then l.ofDigits x.negative ['0'] 0
  else
    let d := (Decimal.shortest l.tie x).normalize
    let digits := Text.ofNat d.digits
    l.ofDigits x.negative digits (d.exponent + digits.length - 1)

end Layout
end BlockCanvas
