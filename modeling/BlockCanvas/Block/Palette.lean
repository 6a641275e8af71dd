import BlockCanvas.Block.Basic
import BlockCanvas.Text.LowerCase

/-!
# The palette

The templates that blocks are made from, in the order in which they are offered, and the search for
them.
-/

namespace BlockCanvas
namespace Palette

def input (id label : String) (kind : PortKind) (value : String) : Input :=
  ⟨id.toList, label.toList, kind, some value.toList⟩

def output (id label : String) (kind : PortKind) : Output := ⟨id.toList, label.toList, kind⟩

/-- A template in the color of its category. -/
def entry (type : String) (category : Category) (label icon template : String)
    (inputs : List Input) (outputs : List Output) : Template :=
  ⟨type.toList, category, label.toList, icon.toList, category.color, some template.toList,
    inputs, outputs⟩

/-- All templates in palette order. -/
def templates : List Template := [
  entry "set_variable" .variables "Set Variable" "Calculator"
    "\x7bvariable\x7d = \x7bvalue\x7d"
    [input "variable" "Variable Name" .string "x", input "value" "Value" .any "10"] [],
  entry "math_operation" .variables "Math Operation" "Plus"
    "\x7bleft\x7d \x7boperator\x7d \x7bright\x7d"
    [input "left" "Left" .number "5", input "operator" "Operation" .string "+",
      input "right" "Right" .number "3"]
    [output "result" "Result" .number],
  entry "if_statement" .control "If Statement" "GitBranch"
    "if \x7bcondition\x7d:\n    \x7baction\x7d"
    [input "condition" "Condition" .boolean "x > 5", input "action" "Action" .any "print(\"Yes!\")"]
    [],
  entry "for_loop" .control "For Loop" "RotateCcw"
    "for \x7bvariable\x7d in range(\x7bstart\x7d, \x7bend\x7d):\n    \x7baction\x7d"
    [input "variable" "Variable" .string "i", input "start" "Start" .number "0",
      input "end" "End" .number "5", input "action" "Action" .any "print(i)"]
    [],
  entry "print" .io "Print" "MessageSquare" "print(\x7bmessage\x7d)"
    [input "message" "Message" .any "\"Hello World!\""] [],
  entry "input" .io "Get Input" "Keyboard" "input(\x7bprompt\x7d)"
    [input "prompt" "Prompt" .string "\"Enter something: \""]
    [output "result" "Input" .string],
  entry "define_function" .functions "Define Function" "Zap"
    "def \x7bname\x7d(\x7bparameters\x7d):\n    \x7bbody\x7d\n    return \x7breturn_value\x7d"
    [input "name" "Function Name" .string "my_function",
      input "parameters" "Parameters" .string "x, y", input "body" "Body" .any "result = x + y",
      input "return_value" "Return" .any "result"]
    [],
  entry "create_list" .lists "Create List" "List" "[\x7bitems\x7d]"
    [input "items" "Items" .string "1, 2, 3, 4, 5"] [output "list" "List" .any],
  entry "append_to_list" .lists "Add to List" "ListPlus" "\x7blist\x7d.append(\x7bitem\x7d)"
    [input "list" "List" .any "my_list", input "item" "Item" .any "6"] []]

/-- The template of a block type. -/
def find? (type : Text) : Option Template := templates.find? fun t => t.type == type

/-- The templates of each category, categories in the order in which they first appear. -/
def groups : List (Category × List Template) :=
  ((templates.map Template.category).eraseDups).map fun c =>
    (c, templates.filter fun t => t.category == c)

end Palette

/-- Whether a query stands in the type, the label or the category heading of a template, case
aside; the empty query finds everything. -/
def Template.isFoundBy (t : Template) (query : Text) : Bool :=
  query.isEmpty || [t.type, t.label, t.category.heading].any fun s =>
    Text.contains (Text.toLower query) (Text.toLower s)

end BlockCanvas
