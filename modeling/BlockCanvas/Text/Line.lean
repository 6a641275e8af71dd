import BlockCanvas.Text.Basic

/-!
# Lines and blanks

`lines` cuts a text at its line feeds; `trim` removes the blanks at both ends, a blank being a
character with the Unicode property White_Space.
-/

namespace BlockCanvas
namespace Text

/-! ### Lines -/

/-- A line without the carriage return that ends it. -/
def chomp (line : Text) : Text :=
  match line.reverse with
  | '\r' :: rest => rest.reverse
  | _ => line

/-- The lines among the pieces between line feeds: a text that ends with a line feed has no line
after it, and a carriage return belongs to the line end only before a line feed. -/
def linesOfPieces : List Text → List Text
  | [] => []
  | [piece] => if piece = [] then [] else [piece]
  | piece :: next :: rest => chomp piece :: linesOfPieces (next :: rest)

/-- The lines of a text, which end with a line feed or with a carriage return and a line feed. -/
def lines (s : Text) : List Text := linesOfPieces (splitChar '\n' s)

/-! ### Blanks -/

/-- Whether a character has the Unicode property White_Space. -/
def isBlank (c : Char) : Bool :=
  let n := c.toNat
  (0x09 ≤ n && n ≤ 0x0D) || n == 0x20 || n == 0x85 || n == 0xA0 || n == 0x1680 ||
    (0x2000 ≤ n && n ≤ 0x200A) || n == 0x2028 || n == 0x2029 || n == 0x202F || n == 0x205F ||
    n == 0x3000

/-- A text without the blanks at its start. -/
def trimStart (s : Text) : Text := s.dropWhile isBlank

/-- A text without the blanks at its end. -/
def trimEnd (s : Text) : Text := (s.reverse.dropWhile isBlank).reverse

/-- A text without the blanks at both ends. -/
def trim (s : Text) : Text := trimEnd (trimStart s)

end Text
end BlockCanvas
