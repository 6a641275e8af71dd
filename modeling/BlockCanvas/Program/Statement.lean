import BlockCanvas.Program.Action
import BlockCanvas.Program.Expression
import BlockCanvas.Program.Shape

/-!
# Statements

A line is handled by the first rule, in the order of `Rule.all`, that matches it and does not pass
it on; the last rule echoes every line.  `step` is the action of one line.
-/

namespace BlockCanvas

/-- The limits of a run and the answer that every prompt gets. -/
structure Config where
  maxLoopIterations : Nat := 10000
  maxListItems : Nat := 100000
  simulatedInput : Text := "Hello from the simulator!".toList
deriving DecidableEq

/-- The kinds of statements. -/
inductive Rule where
  | assignment | print | input | forRange | ifHeader | defHeader | append | listLiteral | echo
deriving DecidableEq

/-- What a rule makes of a line that looks like its kind of statement. -/
inductive Verdict where
  | taken
  /-- The line only looked like this statement. -/
  | passed
deriving DecidableEq

/-- The fault that ended a run: the line, the rule that took it, and the cause. -/
structure Failure where
  line : Text
  rule : Rule
  fault : Fault

namespace Rule

/-- All rules in the order in which they are tried; the echo takes every line. -/
def all : List Rule :=
  [.assignment, .print, .input, .forRange, .ifHeader, .defHeader, .append, .listLiteral, .echo]

/-- The name of a rule in messages. -/
def name : Rule → Text
  | .assignment => "assignment".toList
  | .print => "print".toList
  | .input => "input".toList
  | .forRange => "for-range".toList
  | .ifHeader => "if".toList
  | .defHeader => "def".toList
  | .append => "append".toList
  | .listLiteral => "list-literal".toList
  | .echo => "echo".toList

def startsWith (first line : Text) : Bool := first.isPrefixOf line

def endsWith (last line : Text) : Bool := last.isSuffixOf line

/-- Whether a line looks like a statement of this kind. -/
def accepts : Rule → Text → Bool
  | .assignment, line => Text.contains " = ".toList line && !Text.contains "==".toList line
  | .print, line => startsWith "print(".toList line && endsWith [')'] line
  | .input, line => Text.contains "input(".toList line
  | .forRange, line =>
    startsWith "for ".toList line && Text.contains " in range(".toList line
  | .ifHeader, line => startsWith "if ".toList line && endsWith [':'] line
  | .defHeader, line => startsWith "def ".toList line && endsWith [':'] line
  | .append, line => Text.contains ".append(".toList line
  | .listLiteral, line => startsWith ['['] line && endsWith [']'] line
  | .echo, _ => true

end Rule

/-! ### What each rule does -/

namespace Statement

/-- What marks an echoed line and a prompt. -/
def echoMark : Text := ">>> ".toList

/-- The value of an expression. -/
def eval (e : Text) : Action Fault Value := .compute fun b => Expression.evaluate b e

/-- `name = expression` binds the name. -/
def assign (line : Text) : Action Fault Verdict :=
  match Text.splitOnce " = ".toList line with
  | none => return .passed
  | some (name, e) => do
    let v ← eval (Text.trim e)
    Action.store (Text.trim name) v
    return .taken

/-- `print(expression)` prints the text of the value. -/
def print (line : Text) : Action Fault Verdict :=
  match Text.between? "print(".toList [')'] line with
  | none => return .passed
  | some e => do
    let v ← eval e
    Action.print v.display
    return .taken

/-- `input("prompt")` prints the prompt and the answer. -/
def input (config : Config) (line : Text) : Action Fault Verdict :=
  match Shape.prompt? line with
  | none => return .passed
  | some prompt => do
    Action.print (echoMark ++ prompt)
    Action.print config.simulatedInput
    return .taken

/-- A loop header binds its variable to one number after the other, and prints each of them. -/
def forRange (config : Config) (line : Text) : Action Fault Verdict :=
  match Shape.range? line with
  | none => return .passed
  | some r => do
    let count := r.stop - r.start
    if config.maxLoopIterations < count then
      Action.fail (.rangeTooLong r.start r.stop count config.maxLoopIterations)
    else
      Action.forEach (fun i => do
        Action.store r.var (.number (.ofNat i))
        Action.print (r.var ++ " = ".toList ++ Text.ofNat i)) (List.range' r.start count)
      return .taken

/-- `if condition:` says so if the condition holds. -/
def ifHeader (line : Text) : Action Fault Verdict :=
  match Text.between? "if ".toList [':'] line with
  | none => return .passed
  | some condition => do
    if ← Action.compute fun b => Expression.holds b condition then
      Action.print ("Condition \"".toList ++ condition ++ "\" is true".toList)
    return .taken

/-- A function header names the function and its parameters. -/
def defHeader (line : Text) : Action Fault Verdict :=
  match Shape.function? line with
  | none => return .passed
  | some (name, params) => do
    let shown := if params = [] then "none".toList else params
    Action.print ("Function \"".toList ++ name ++ "\" defined with parameters: ".toList ++ shown)
    return .taken

/-- The list that an append to a value of this kind would make, if the limits allow it. -/
def appended (config : Config) (name : Text) (list item : Value) : Except Fault Value :=
  match list with
  | .list items =>
    let size := item.measure
    if config.maxListItems < (Value.list items).measure.count + size.count then
      .error (.listTooLarge name config.maxListItems)
    else if maxListDepth < size.depth + 1 then .error (.listTooDeep name)
    else .ok (.list (items ++ [item]))
  | other => .error (.notAList name other.kind)

/-- The value that an append to `name` works on.  A name that is unbound or bound to a false value
is bound to the empty list first. -/
def listOf (name : Text) : Action Fault Value := do
  match ← Action.compute fun b => .ok (b.get? name) with
  | some v =>
    if v.isTruthy then return v
    else
      Action.store name (.list [])
      return .list []
  | none =>
    Action.store name (.list [])
    return .list []

/-- `name.append(expression)` puts the value at the end of the list. -/
def append (config : Config) (line : Text) : Action Fault Verdict :=
  match Shape.append? line with
  | none => return .passed
  | some (name, e) => do
    let list ← listOf name
    let item ← eval e
    let grown ← Action.compute fun _ => appended config name list item
    Action.store name grown
    Action.print ("Added ".toList ++ item.display ++ " to ".toList ++ name)
    return .taken

/-- `[expressions]` prints the texts of the values. -/
def listLiteral (line : Text) : Action Fault Verdict :=
  match Text.between? ['['] [']'] line with
  | none => return .passed
  | some inner => do
    let items ← (Text.splitChar ',' inner).mapM fun e => eval (Text.trim e)
    Action.print ("List created: [".toList ++
      ", ".toList.intercalate (items.map Value.display) ++ [']'])
    return .taken

/-- A line that is no other statement is repeated. -/
def echo (line : Text) : Action Fault Verdict := do
  Action.print (echoMark ++ line)
  return .taken

/-- What a rule makes of a line that it accepts. -/
def handle (config : Config) (line : Text) : Rule → Action Fault Verdict
  | .assignment => assign line
  | .print => print line
  | .input => input config line
  | .forRange => forRange config line
  | .ifHeader => ifHeader line
  | .defHeader => defHeader line
  | .append => append config line
  | .listLiteral => listLiteral line
  | .echo => echo line

/-- What a line does when these rules are tried one after the other; the first that takes it is the
last one tried. -/
def stepWith (config : Config) (line : Text) : List Rule → Action Failure Unit
  | [] => return ()
  | rule :: rules =>
    if rule.accepts line then do
      match ← (handle config line rule).mapError (Failure.mk line rule) with
      | .taken => return ()
      | .passed => stepWith config line rules
    else stepWith config line rules

/-- What a line does. -/
def step (config : Config) (line : Text) : Action Failure Unit :=
  stepWith config line Rule.all

end Statement
end BlockCanvas
