import BlockCanvas.Block.Basic
import BlockCanvas.Text.Digits
import BlockCanvas.Text.Line

/-!
# Program text of blocks

`render` is the fragment of program text of one block, `synthesize` the program of all blocks from
top to bottom.  `unmatchedPlaceholders` lists the placeholders of a template that no input fills.
-/

namespace BlockCanvas

/-- The placeholder for a name: the name between braces. -/
def placeholder (name : Text) : Text := '\x7b' :: name ++ ['\x7d']

/-- What an input puts into a template: its value, or its label in quotes. -/
def Input.contribution (i : Input) : Text :=
  match i.filled? with
  | some value => value
  | none => '"' :: i.label ++ ['"']

namespace Block

/-- A template with the placeholders of the inputs filled in, one input after the other. -/
def fill (template : Text) (inputs : List Input) : Text :=
  inputs.foldl (fun code i => Text.replaceAll (placeholder i.id) i.contribution code) template

/-- The template of a block that has something to fill in. -/
def fillable? (block : Block) : Option Text :=
  match block.template with
  | some template => if template = [] ∨ block.inputs = [] then none else some template
  | none => none

/-- The program text of a block: its template filled in, or a comment with its label. -/
def render (block : Block) : Text :=
  match block.fillable? with
  | some template => fill template block.inputs
  | none => "# ".toList ++ block.label

/-! ### Placeholders -/

/-- The texts between an opening brace and the next closing one, in a text read from left to
right. -/
def bracedNames (s : Text) : List Text :=
  match _ho : Text.splitOnce ['\x7b'] s with
  | none => []
  | some (_, after) =>
    match _hc : Text.splitOnce ['\x7d'] after with
    | none => []
    | some (name, rest) => name :: bracedNames rest
termination_by s.length
decreasing_by
  have := Text.length_lt_of_splitOnce (by simp) _ho
  have := Text.length_lt_of_splitOnce (by simp) _hc
  omega

/-- Whether a text is made of name characters. -/
def isName (s : Text) : Bool := !s.isEmpty && s.all Text.isWordChar

/-- The names of the placeholders in the template that no input provides, each once, in the order
in which they appear. -/
def unmatchedPlaceholders (block : Block) : List Text :=
  match block.template with
  | none => []
  | some template =>
    ((bracedNames template).filter fun name =>
      isName name && (block.input? name).isNone).eraseDups

end Block

namespace Program

/-- The program that stands for a canvas without blocks. -/
def placeholderProgram : Text :=
  "# Your code will appear here!\n# Drag blocks to the workspace to get started.".toList

/-- Blocks from top to bottom; blocks at one height keep their order. -/
def inRows (blocks : List Block) : List Block :=
  blocks.mergeSort fun a b => a.y.rank ≤ b.y.rank

/-- The program text of blocks: their fragments from top to bottom with blank lines between. -/
def synthesize (blocks : List Block) : Text :=
  if blocks = [] then placeholderProgram
  else "\n\n".toList.intercalate ((inRows blocks).map Block.render)

/-- The lines of the program text of blocks. -/
def sourceLines (blocks : List Block) : List Text := Text.lines (synthesize blocks)

end Program
end BlockCanvas
