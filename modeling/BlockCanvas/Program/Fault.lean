import BlockCanvas.Program.Value

/-!
# Faults

What stops a run, and the messages that say so.
-/

namespace BlockCanvas

/-- The arithmetic operators. -/
inductive Operator where
  | add | sub | mul | div
deriving DecidableEq

namespace Operator

def symbol : Operator → Char
  | .add => '+'
  | .sub => '-'
  | .mul => '*'
  | .div => '/'

/-- The text of an operator in an expression: its symbol between two spaces. -/
def token (op : Operator) : Text := [' ', op.symbol, ' ']

/-- All operators in the order in which an expression is searched for them. -/
def all : List Operator := [.add, .sub, .mul, .div]

end Operator

/-- How many operators deep an expression may nest. -/
def maxExpressionDepth : Nat := 256

/-- How deep the lists that a program builds may nest. -/
def maxListDepth : Nat := 64

inductive Fault where
  /-- An expression nests more operators than `maxExpressionDepth`. -/
  | tooManyOperators
  /-- A value that is no number stands where one is needed. -/
  | notANumber (v : Value)
  | divisionByZero (a b : Binary64)
  /-- The result of an operation is too large, or not a number. -/
  | notFinite (a : Binary64) (op : Operator) (b : Binary64)
  /-- A loop would run `count` times, more than `limit`. -/
  | rangeTooLong (start stop count limit : Nat)
  /-- The list `name` would hold more than `limit` values. -/
  | listTooLarge (name : Text) (limit : Nat)
  /-- The list `name` would nest deeper than `maxListDepth`. -/
  | listTooDeep (name : Text)
  /-- `name` is bound to a value that is no list. -/
  | notAList (name kind : Text)

namespace Fault

def message : Fault → Text
  | .tooManyOperators =>
    "expression nests more than ".toList ++ Text.ofNat maxExpressionDepth ++
      " operators deep".toList
  | .notANumber v =>
    "cannot use ".toList ++ v.kind ++ " '".toList ++ v.display ++ "' as a number".toList
  | .divisionByZero a b =>
    "division by zero: ".toList ++ a.display ++ " / ".toList ++ b.display
  | .notFinite a op b =>
    a.display ++ op.token ++ b.display ++ " does not give a finite number".toList
  | .rangeTooLong start stop count limit =>
    "range(".toList ++ Text.ofNat start ++ ", ".toList ++ Text.ofNat stop ++
      ") would run ".toList ++ Text.ofNat count ++ " times, more than the limit of ".toList ++
      Text.ofNat limit
  | .listTooLarge name limit =>
    '\'' :: name ++ "' would hold more than ".toList ++ Text.ofNat limit ++ " values".toList
  | .listTooDeep name =>
    '\'' :: name ++ "' would nest lists more than ".toList ++ Text.ofNat maxListDepth ++
      " deep".toList
  | .notAList name kind =>
    '\'' :: name ++ "' is a ".toList ++ kind ++ ", not a list".toList

end Fault
end BlockCanvas
