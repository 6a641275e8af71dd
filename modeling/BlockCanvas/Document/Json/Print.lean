import BlockCanvas.Document.Json.Tree

/-!
# Writing JSON

`compact` writes a tree without any space, `pretty` with one value to a line and two spaces of
indentation for each level.  Both write only trees that are whole; what is broken has no text.
-/

namespace BlockCanvas
namespace Json

/-! ### Strings -/

/-- Four hexadecimal digits. -/
def hex4 (n : Nat) : Text :=
  let digits := Nat.toDigits 16 n
  List.replicate (4 - digits.length) '0' ++ digits

/-- A character as it stands in a string literal. -/
def escapeChar (c : Char) : Text :=
  match c with
  | '"' => "\\\"".toList
  | '\\' => "\\\\".toList
  | '\x08' => "\\b".toList
  | '\x0c' => "\\f".toList
  | '\n' => "\\n".toList
  | '\r' => "\\r".toList
  | '\t' => "\\t".toList
  | c => if c.toNat < 0x20 then "\\u".toList ++ hex4 c.toNat else [c]

def Piece.print : Piece → Text
  | .char c => escapeChar c
  | .surrogate unit => "\\u".toList ++ hex4 unit

def Literal.print (s : Literal) : Text := '"' :: s.pieces.flatMap Piece.print ++ ['"']

/-! ### Trees -/

def boolText (b : Bool) : Text := if b then "true".toList else "false".toList

mutual

def compact : Json → Text
  | .null => "null".toList
  | .bool b => boolText b
  | .number n => n.text
  | .string s => s.print
  | .array is => '[' :: compactItems is ++ [']']
  | .object ms => '\x7b' :: compactMembers ms ++ ['\x7d']
  | .cutNumber | .garbled _ | .missing => []

def compactItems : Items → Text
  | .cons head (.cons next tail) => compact head ++ ',' :: compactItems (.cons next tail)
  | .cons head _ => compact head
  | _ => []

def compactMembers : Members → Text
  | .cons key v (.cons next w tail) =>
    key.print ++ ':' :: compact v ++ ',' :: compactMembers (.cons next w tail)
  | .cons key v _ => key.print ++ ':' :: compact v
  | _ => []

end

/-- The start of a line at a level of indentation. -/
def newline (level : Nat) : Text := '\n' :: List.replicate (2 * level) ' '

mutual

/-- The text of a value that stands at a level of indentation; empty arrays and objects take no
lines of their own. -/
def prettyAt (level : Nat) : Json → Text
  | .null => "null".toList
  | .bool b => boolText b
  | .number n => n.text
  | .string s => s.print
  | .array (.cons head tail) =>
    '[' :: prettyItems (level + 1) (.cons head tail) ++ newline level ++ [']']
  | .array _ => "[]".toList
  | .object (.cons key v tail) =>
    '\x7b' :: prettyMembers (level + 1) (.cons key v tail) ++ newline level ++ ['\x7d']
  | .object _ => "\x7b\x7d".toList
  | .cutNumber | .garbled _ | .missing => []

def prettyItems (level : Nat) : Items → Text
  | .cons head (.cons next tail) =>
    newline level ++ prettyAt level head ++ ',' :: prettyItems level (.cons next tail)
  | .cons head _ => newline level ++ prettyAt level head
  | _ => []

def prettyMembers (level : Nat) : Members → Text
  | .cons key v (.cons next w tail) =>
    newline level ++ key.print ++ ": ".toList ++ prettyAt level v ++
      ',' :: prettyMembers level (.cons next w tail)
  | .cons key v _ => newline level ++ key.print ++ ": ".toList ++ prettyAt level v
  | _ => []

end

/-- The text of a tree on many lines. -/
def pretty (j : Json) : Text := prettyAt 0 j

end Json
end BlockCanvas
