import BlockCanvas.Number.Binary64
import BlockCanvas.Text.Basic

/-!
# Blocks

A block is a statement placed on the canvas: a template of program text with named inputs that are
filled in.  A `Template` is a block before it is placed.
-/

namespace BlockCanvas

/-- The groups of the palette. -/
inductive Category where
  | variables | control | io | functions | lists
deriving DecidableEq

namespace Category

def all : List Category := [.variables, .control, .io, .functions, .lists]

/-- The name of a category in documents. -/
def name : Category → Text
  | .variables => "variables".toList
  | .control => "control".toList
  | .io => "io".toList
  | .functions => "functions".toList
  | .lists => "lists".toList

/-- The heading of a category in the palette. -/
def heading : Category → Text
  | .variables => "Variables & Math".toList
  | .control => "Control Flow".toList
  | .io => "Input/Output".toList
  | .functions => "Functions".toList
  | .lists => "Lists & Data".toList

/-- The color of a category and of its blocks. -/
def color : Category → Text
  | .variables => "bg-blue-500".toList
  | .control => "bg-green-500".toList
  | .io => "bg-purple-500".toList
  | .functions => "bg-orange-500".toList
  | .lists => "bg-pink-500".toList

def icon : Category → Text
  | .variables => "Calculator".toList
  | .control => "GitBranch".toList
  | .io => "MessageSquare".toList
  | .functions => "Zap".toList
  | .lists => "List".toList

end Category

/-- The declared kinds of inputs and outputs. -/
inductive PortKind where
  | string | number | boolean | any
deriving DecidableEq

namespace PortKind

def all : List PortKind := [.string, .number, .boolean, .any]

/-- The name of a port kind in documents. -/
def name : PortKind → Text
  | .string => "string".toList
  | .number => "number".toList
  | .boolean => "boolean".toList
  | .any => "any".toList

end PortKind

/-- An input that can be filled in; its value takes the place of its id in the template. -/
structure Input where
  id : Text
  label : Text
  kind : PortKind
  value : Option Text
deriving DecidableEq

/-- The value of an input; an empty one counts as none. -/
def Input.filled? (i : Input) : Option Text := i.value.filter (· ≠ [])

/-- An output, which only describes the block. -/
structure Output where
  id : Text
  label : Text
  kind : PortKind
deriving DecidableEq

/-- What a block is before it is placed. -/
structure Template where
  type : Text
  category : Category
  label : Text
  icon : Text
  color : Text
  template : Option Text
  inputs : List Input
  outputs : List Output
deriving DecidableEq

/-- A block on the canvas. -/
structure Block where
  id : Text
  type : Text
  category : Category
  label : Text
  icon : Text
  color : Text
  x : Binary64
  y : Binary64
  template : Option Text
  inputs : List Input
  outputs : List Output
deriving DecidableEq

/-- The block that a template makes at a place. -/
def Template.instantiate (t : Template) (id : Text) (x y : Binary64) : Block :=
  ⟨id, t.type, t.category, t.label, t.icon, t.color, x, y, t.template, t.inputs, t.outputs⟩

namespace Block

/-- The first input with an id. -/
def input? (block : Block) (id : Text) : Option Input := block.inputs.find? fun i => i.id == id

/-- The inputs without a value. -/
def missingInputs (block : Block) : List Input :=
  block.inputs.filter fun i => i.filled?.isNone

end Block
end BlockCanvas
