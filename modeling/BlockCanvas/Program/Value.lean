import BlockCanvas.Number.Display

/-!
# Values

What programs compute with: texts, numbers and lists.  `display` is the text of a value,
`toNumber?` the number it counts as, `measure` its size, and `same` the equality that programs test.
-/

namespace BlockCanvas

inductive Value where
  | text (s : Text)
  | number (x : Binary64)
  | list (items : List Value)

/-- How many values a value is made of, and how deep its lists nest. -/
structure Measure where
  count : Nat
  depth : Nat
deriving DecidableEq

namespace Value

/-- The kind of a value, as messages name it. -/
def kind : Value → Text
  | .text _ => "string".toList
  | .number _ => "number".toList
  | .list _ => "list".toList

mutual

/-- The text of a value; the items of a list are joined by commas. -/
def display : Value → Text
  | .text s => s
  | .number x => x.display
  | .list items => displayItems items

def displayItems : List Value → Text
  | [] => []
  | [v] => display v
  | v :: next :: rest => display v ++ ',' :: displayItems (next :: rest)

end

/-- Empty texts, zeros and NaN are false; every list is true. -/
def isTruthy : Value → Bool
  | .text s => !s.isEmpty
  | .number x => !x.isZero && !x.isNaN
  | .list _ => true

/-- The number a value counts as: texts are read, an empty list is zero, and a list of one item
counts as the item. -/
def toNumber? : Value → Option Binary64
  | .number x => some x
  | .text s => Binary64.literal? s
  | .list [] => some (.zero false)
  | .list [v] => toNumber? v
  | .list (_ :: _ :: _) => none

mutual

/-- A value counts itself and all values inside it; a list is one deeper than its deepest item. -/
def measure : Value → Measure
  | .text _ => ⟨1, 0⟩
  | .number _ => ⟨1, 0⟩
  | .list items => let inner := measureItems items; ⟨inner.count + 1, inner.depth + 1⟩

/-- The values in all items together, and the depth of the deepest. -/
def measureItems : List Value → Measure
  | [] => ⟨0, 0⟩
  | v :: rest =>
    let head := measure v
    let tail := measureItems rest
    ⟨head.count + tail.count, Nat.max head.depth tail.depth⟩

end

mutual

/-- Equality within one kind: texts by character, numbers as numbers, lists item by item. -/
def same : Value → Value → Bool
  | .text s, .text t => s == t
  | .number x, .number y => x.eq y
  | .list v, .list w => sameItems v w
  | _, _ => false

def sameItems : List Value → List Value → Bool
  | [], [] => true
  | v :: vs, w :: ws => same v w && sameItems vs ws
  | _, _ => false

end

end Value
end BlockCanvas
