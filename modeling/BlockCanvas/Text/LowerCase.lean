import BlockCanvas.Text.LowerCaseTable
import BlockCanvas.Text.Basic

/-!
# Lower case

`toLower` is the full Unicode lower-casing of a text: each character goes to its lower-case form,
the dotted capital I to two characters, and a capital sigma to the final form at the end of a word.
-/

namespace BlockCanvas
namespace Text

/-- The lower-case form of a character where it is one character. -/
def lowerChar (c : Char) : Char :=
  let n := c.toNat
  match caseShifts.find? fun s => s.first ≤ n && n ≤ s.last && (n - s.first) % s.step == 0 with
  | some s => Char.ofNat ((n : Int) + s.offset).toNat
  | none => c

/-- Whether the first character that case rules do not look through is a letter with case. -/
def meetsLetter (s : Text) : Bool :=
  match s.dropWhile caseIgnorable.has with
  | [] => false
  | c :: _ => casedLetters.has c

/-- The lower-case form of a character between the text before it, read backwards, and the text
after it. -/
def lowerIn (before : Text) (c : Char) (after : Text) : Text :=
  if c = 'Σ' then [if meetsLetter before && !meetsLetter after then 'ς' else 'σ']
  else if c = 'İ' then ['i', '\u0307']
  else [lowerChar c]

/-- The lower-case form of a text after a text that is given backwards. -/
def toLowerAfter (before : Text) : Text → Text
  | [] => []
  | c :: s => lowerIn before c s ++ toLowerAfter (c :: before) s

/-- The lower-case form of a text. -/
def toLower (s : Text) : Text := toLowerAfter [] s

end Text
end BlockCanvas
