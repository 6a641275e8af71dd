import BlockCanvas.Text.Basic
import BlockCanvas.Text.Unprintable

/-!
# Quoted texts

How messages quote a text: in double quotes, with escapes for what does not show.
-/

namespace BlockCanvas
namespace Text

/-- A code point in hexadecimal between braces. -/
def codePoint (c : Char) : Text :=
  '\\' :: 'u' :: '\x7b' :: Nat.toDigits 16 c.toNat ++ ['\x7d']

/-- A character as it stands in a quoted text. -/
def quotedChar (c : Char) : Text :=
  match c with
  | '\x00' => "\\0".toList
  | '\t' => "\\t".toList
  | '\r' => "\\r".toList
  | '\n' => "\\n".toList
  | '"' => "\\\"".toList
  | '\\' => "\\\\".toList
  | c => if unprintable.has c then codePoint c else [c]

/-- A text in double quotes. -/
def quoted (s : Text) : Text := '"' :: s.flatMap quotedChar ++ ['"']

end Text
end BlockCanvas
