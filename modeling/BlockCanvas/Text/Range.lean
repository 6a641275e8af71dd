/-!
# Ranges of characters

Sets of characters given by the code points at which their ranges begin and end.
-/

namespace BlockCanvas
namespace Text

/-- The first and the last code point of each range of a set of characters, in ascending order. -/
abbrev Ranges := List (Nat × Nat)

/-- Whether a character is in one of the ranges. -/
def Ranges.has (ranges : Ranges) (c : Char) : Bool :=
  ranges.any fun r => r.1 ≤ c.toNat && c.toNat ≤ r.2

end Text
end BlockCanvas
