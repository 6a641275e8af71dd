import BlockCanvas.Program.Bindings
import BlockCanvas.Program.Fault

/-!
# Expressions

An expression is read by its shape: a quoted text, a number, a bound name, two expressions around
an operator, or else the text that it is.  The operators are searched for in the order of
`Operator.all`, and the expression is cut at the first place of the first one found; that operator
is applied last.  So `10 - 4 - 3` is `10 - (4 - 3)`.

`evaluate` gives the value of an expression, `holds` the truth of a condition.
-/

namespace BlockCanvas
namespace Expression

/-! ### Atoms -/

/-- The text between two equal quotes; a single quote is both of them. -/
def unquoteWith? (quote : Char) (e : Text) : Option Text :=
  if e = [quote] then some [] else Text.between? [quote] [quote] e

/-- The text of a quoted literal. -/
def unquote? (e : Text) : Option Text :=
  match unquoteWith? '"' e with
  | some s => some s
  | none => unquoteWith? '\'' e

/-- The value of an expression that needs no operator: a quoted text, a number or a bound name. -/
def atom? (b : Bindings) (e : Text) : Option Value :=
  match unquote? e with
  | some s => some (.text s)
  | none =>
    match Binary64.literal? e with
    | some x => some (.number x)
    | none => b.get? e

/-! ### Operations -/

/-- The operator at which an expression is cut, with the expressions on its two sides. -/
def cut? (e : Text) : Option (Operator × Text × Text) :=
  Operator.all.findSome? fun op => (Text.splitOnce op.token e).map fun sides => (op, sides)

/-- The number a value counts as. -/
def asNumber (v : Value) : Except Fault Binary64 :=
  match v.toNumber? with
  | some x => .ok x
  | none => .error (.notANumber v)

/-- The result of an operation, which has to be finite. -/
def finite (a : Binary64) (op : Operator) (b result : Binary64) : Except Fault Value :=
  if result.isFinite then .ok (.number result) else .error (.notFinite a op b)

/-- An operation on two numbers. -/
def compute (op : Operator) (a b : Binary64) : Except Fault Value :=
  match op with
  | .add => finite a op b (a + b)
  | .sub => finite a op b (a - b)
  | .mul => finite a op b (a * b)
  | .div => if b.isZero then .error (.divisionByZero a b) else finite a op b (a / b)

/-- An operation on two values: a sum with a part that is no number joins the two texts, all else
counts with numbers. -/
def operate (op : Operator) (left right : Value) : Except Fault Value :=
  match op, left, right with
  | .add, .number a, .number b => compute .add a b
  | .add, left, right => .ok (.text (left.display ++ right.display))
  | op, left, right => do
    let a ← asNumber left
    let b ← asNumber right
    compute op a b

/-- The value of an expression in which operators may nest `room` deep. -/
def evaluateIn (b : Bindings) : (room : Nat) → Text → Except Fault Value
  | room, e =>
    match atom? b e with
    | some v => .ok v
    | none =>
      match cut? e with
      | none => .ok (.text e)
      | some (op, left, right) =>
        match room with
        | 0 => .error .tooManyOperators
        | room + 1 => do
          let l ← evaluateIn b room left
          let r ← evaluateIn b room right
          operate op l r

/-- The value of an expression. -/
def evaluate (b : Bindings) (e : Text) : Except Fault Value := evaluateIn b maxExpressionDepth e

/-! ### Conditions -/

inductive Comparison where
  | greater | less | equal
deriving DecidableEq

namespace Comparison

def token : Comparison → Text
  | .greater => " > ".toList
  | .less => " < ".toList
  | .equal => " == ".toList

/-- All comparisons in the order in which a condition is searched for them. -/
def all : List Comparison := [.greater, .less, .equal]

end Comparison

/-- The order of texts by the code points of their characters. -/
def textLt : Text → Text → Bool
  | [], [] => false
  | [], _ :: _ => true
  | _ :: _, [] => false
  | a :: s, b :: t => if a = b then textLt s t else a.toNat < b.toNat

/-- Whether a value is below another: as texts if neither is a number, else as numbers, where a
value that counts as none is neither below nor above anything. -/
def below (left right : Value) : Bool :=
  let byNumber := match left.toNumber?, right.toNumber? with
    | some a, some b => a.lt b
    | _, _ => false
  match left, right with
  | .number _, _ => byNumber
  | _, .number _ => byNumber
  | _, _ => textLt left.display right.display

def compare (c : Comparison) (left right : Value) : Bool :=
  match c with
  | .greater => below right left
  | .less => below left right
  | .equal => left.same right

/-- The comparison at which a condition is cut, with the expressions on its two sides. -/
def cutCondition? (e : Text) : Option (Comparison × Text × Text) :=
  Comparison.all.findSome? fun c => (Text.splitOnce c.token e).map fun sides => (c, sides)

/-- The truth of a condition: a comparison of two expressions, or the truth of a value. -/
def holds (b : Bindings) (e : Text) : Except Fault Bool :=
  match cutCondition? e with
  | some (c, left, right) => do
    let l ← evaluate b left
    let r ← evaluate b right
    return compare c l r
  | none => do
    let v ← evaluate b e
    return v.isTruthy

end Expression
end BlockCanvas
