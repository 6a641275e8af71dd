import BlockCanvas.Text.Digits
import BlockCanvas.Text.Line

/-!
# Statement shapes

Statements that are found by more than the ends of a line: prompts, loop headers, function headers
and appends.  A shape may stand anywhere on the line; the leftmost place where its keyword stands
and the rest of the shape follows is the one that counts.
-/

namespace BlockCanvas
namespace Shape

/-- The header of a loop over the whole numbers from `start` to below `stop`. -/
structure Range where
  var : Text
  start : Nat
  stop : Nat
deriving DecidableEq

/-- The word at the head of a text, if there is one, and the rest. -/
def word? (s : Text) : Option (Text × Text) :=
  let (word, rest) := Text.takeWord s
  if word = [] then none else some (word, rest)

/-- The value of digits, if it is below `2 ^ 63`. -/
def bound? (digits : Text) : Option Nat :=
  let n := Text.decimalValue digits
  if n < 0x8000000000000000 then some n else none

/-- The prompt at the head of the text after `input("`: it ends at the first quote, which has to
close the call. -/
def promptHere? (after : Text) : Option Text :=
  match Text.splitOnce ['"'] after with
  | some (prompt, ')' :: _) => some prompt
  | _ => none

/-- The prompt of `input("…")`. -/
def prompt? (line : Text) : Option Text :=
  (Text.occurrences "input(\"".toList line).findSome? fun place => promptHere? place.2

/-- A text without the comma at its start. -/
def dropComma : Text → Text
  | ',' :: s => s
  | s => s

/-- The range in the text after ` in range(`: one or two numbers, with an optional comma and blanks
between them, and `):`.  A single number is the end of the range. -/
def boundsHere? (var after : Text) : Option Range :=
  let (first, rest) := Text.takeDigits after
  if first = [] then none else
  let (second, rest) := Text.takeDigits (Text.trimStart (dropComma rest))
  match "):".toList.isPrefixOf? rest with
  | none => none
  | some _ =>
    match bound? first with
    | none => none
    | some a =>
      if second = [] then some ⟨var, 0, a⟩
      else (bound? second).map fun b => ⟨var, a, b⟩

/-- The range in the text after `for `. -/
def rangeHere? (after : Text) : Option Range :=
  match word? after with
  | none => none
  | some (var, rest) =>
    match " in range(".toList.isPrefixOf? rest with
    | none => none
    | some rest => boundsHere? var rest

/-- The loop header of a line. -/
def range? (line : Text) : Option Range :=
  (Text.occurrences "for ".toList line).findSome? fun place => rangeHere? place.2

/-- The name and the parameters in the text after `def `: the parameters run up to the last `):`. -/
def functionHere? (after : Text) : Option (Text × Text) :=
  match word? after with
  | some (name, '(' :: rest) => (Text.splitLast "):".toList rest).map fun p => (name, p.1)
  | _ => none

/-- The name and the parameters of a function header. -/
def function? (line : Text) : Option (Text × Text) :=
  (Text.occurrences "def ".toList line).findSome? fun place => functionHere? place.2

/-- The word at the end of a text. -/
def wordAtEnd (s : Text) : Text := (s.reverse.takeWhile Text.isWordChar).reverse

/-- The list and the item around `.append(`: a word before it, and a text after it that runs up to
the last closing parenthesis and is not empty. -/
def appendHere? (before after : Text) : Option (Text × Text) :=
  let name := wordAtEnd before
  if name = [] then none else
  match Text.splitLast [')'] after with
  | some (item, _) => if item = [] then none else some (name, item)
  | none => none

/-- The list and the item of an append. -/
def append? (line : Text) : Option (Text × Text) :=
  (Text.occurrences ".append(".toList line).findSome? fun place => appendHere? place.1 place.2

end Shape
end BlockCanvas
