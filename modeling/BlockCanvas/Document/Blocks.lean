import BlockCanvas.Canvas.Workspace
import BlockCanvas.Document.Json.Print
import BlockCanvas.Document.Json.Reader

/-!
# Blocks and workspaces in documents

How blocks, templates and workspaces stand in JSON documents: each as an object of its fields.
Reading takes the forms that `Record.read` takes.  What may be left out: the selection, the
template, the inputs and the outputs of a block, the kind of a port, and the value of an input.
-/

namespace BlockCanvas

open Json (field ofText ofOption ofList ofFields)

/-- The number in a document; only finite numbers have one. -/
def Json.ofBinary64 (x : Binary64) : Json :=
  if x.isFinite then .number (Json.layout.numeral x) else .null

/-! ### Ports -/

def Category.reader : Json.Reader Category := Json.choice Category.all Category.name

def PortKind.reader : Json.Reader PortKind := Json.choice PortKind.all PortKind.name

namespace Input

structure Draft where
  id : Option Text := none
  label : Option Text := none
  kind : Option PortKind := none
  value : Option (Option Text) := none

def record : Json.Record Draft Input where
  name := "BlockInput".toList
  fields := [
    field "id" .required Json.text (·.id) fun d a => { d with id := some a },
    field "label" .required Json.text (·.label) fun d a => { d with label := some a },
    field "type" .defaulted PortKind.reader (·.kind) fun d a => { d with kind := some a },
    field "value" .defaulted (Json.nullable Json.text) (·.value)
      fun d a => { d with value := some a }]
  start := {}
  build d := do return ⟨← d.id, ← d.label, d.kind.getD .any, d.value.getD none⟩

def toJson (i : Input) : Json :=
  ofFields [("id".toList, ofText i.id), ("label".toList, ofText i.label),
    ("type".toList, ofText i.kind.name), ("value".toList, ofOption i.value)]

end Input

namespace Output

structure Draft where
  id : Option Text := none
  label : Option Text := none
  kind : Option PortKind := none

def record : Json.Record Draft Output where
  name := "BlockOutput".toList
  fields := [
    field "id" .required Json.text (·.id) fun d a => { d with id := some a },
    field "label" .required Json.text (·.label) fun d a => { d with label := some a },
    field "type" .defaulted PortKind.reader (·.kind) fun d a => { d with kind := some a }]
  start := {}
  build d := do return ⟨← d.id, ← d.label, d.kind.getD .any⟩

def toJson (o : Output) : Json :=
  ofFields [("id".toList, ofText o.id), ("label".toList, ofText o.label),
    ("type".toList, ofText o.kind.name)]

end Output

/-! ### Templates and blocks -/

namespace Template

structure Draft where
  type : Option Text := none
  category : Option Category := none
  label : Option Text := none
  icon : Option Text := none
  color : Option Text := none
  template : Option (Option Text) := none
  inputs : Option (List Input) := none
  outputs : Option (List Output) := none

def record : Json.Record Draft Template where
  name := "BlockTemplate".toList
  fields := [
    field "type" .required Json.text (·.type) fun d a => { d with type := some a },
    field "category" .required Category.reader (·.category)
      fun d a => { d with category := some a },
    field "label" .required Json.text (·.label) fun d a => { d with label := some a },
    field "icon" .required Json.text (·.icon) fun d a => { d with icon := some a },
    field "color" .required Json.text (·.color) fun d a => { d with color := some a },
    field "template" .nullable (Json.nullable Json.text) (·.template)
      fun d a => { d with template := some a },
    field "inputs" .required (Json.list Input.record.read) (·.inputs)
      fun d a => { d with inputs := some a },
    field "outputs" .required (Json.list Output.record.read) (·.outputs)
      fun d a => { d with outputs := some a }]
  start := {}
  build d := do
    return ⟨← d.type, ← d.category, ← d.label, ← d.icon, ← d.color, d.template.getD none,
      ← d.inputs, ← d.outputs⟩

def toJson (t : Template) : Json :=
  ofFields [("type".toList, ofText t.type), ("category".toList, ofText t.category.name),
    ("label".toList, ofText t.label), ("icon".toList, ofText t.icon),
    ("color".toList, ofText t.color), ("template".toList, ofOption t.template),
    ("inputs".toList, ofList (t.inputs.map Input.toJson)),
    ("outputs".toList, ofList (t.outputs.map Output.toJson))]

end Template

namespace Block

structure Draft where
  id : Option Text := none
  type : Option Text := none
  category : Option Category := none
  label : Option Text := none
  icon : Option Text := none
  color : Option Text := none
  x : Option Binary64 := none
  y : Option Binary64 := none
  template : Option (Option Text) := none
  inputs : Option (List Input) := none
  outputs : Option (List Output) := none

def record : Json.Record Draft Block where
  name := "Block".toList
  fields := [
    field "id" .required Json.text (·.id) fun d a => { d with id := some a },
    field "type" .required Json.text (·.type) fun d a => { d with type := some a },
    field "category" .required Category.reader (·.category)
      fun d a => { d with category := some a },
    field "label" .required Json.text (·.label) fun d a => { d with label := some a },
    field "icon" .required Json.text (·.icon) fun d a => { d with icon := some a },
    field "color" .required Json.text (·.color) fun d a => { d with color := some a },
    field "x" .required Json.float (·.x) fun d a => { d with x := some a },
    field "y" .required Json.float (·.y) fun d a => { d with y := some a },
    field "template" .defaulted (Json.nullable Json.text) (·.template)
      fun d a => { d with template := some a },
    field "inputs" .defaulted (Json.list Input.record.read) (·.inputs)
      fun d a => { d with inputs := some a },
    field "outputs" .defaulted (Json.list Output.record.read) (·.outputs)
      fun d a => { d with outputs := some a }]
  start := {}
  build d := do
    return ⟨← d.id, ← d.type, ← d.category, ← d.label, ← d.icon, ← d.color, ← d.x, ← d.y,
      d.template.getD none, d.inputs.getD [], d.outputs.getD []⟩

def toJson (b : Block) : Json :=
  ofFields [("id".toList, ofText b.id), ("type".toList, ofText b.type),
    ("category".toList, ofText b.category.name), ("label".toList, ofText b.label),
    ("icon".toList, ofText b.icon), ("color".toList, ofText b.color),
    ("x".toList, .ofBinary64 b.x), ("y".toList, .ofBinary64 b.y),
    ("template".toList, ofOption b.template),
    ("inputs".toList, ofList (b.inputs.map Input.toJson)),
    ("outputs".toList, ofList (b.outputs.map Output.toJson))]

end Block

/-! ### Workspaces -/

namespace Workspace

structure Draft where
  blocks : Option (List Block) := none
  selected : Option (Option Text) := none

def record : Json.Record Draft Workspace where
  name := "Workspace".toList
  fields := [
    field "blocks" .required (Json.list Block.record.read) (·.blocks)
      fun d a => { d with blocks := some a },
    field "selected_block_id" .defaulted (Json.nullable Json.text) (·.selected)
      fun d a => { d with selected := some a }]
  start := {}
  build d := do return ⟨← d.blocks, d.selected.getD none⟩

def toJson (w : Workspace) : Json :=
  ofFields [("blocks".toList, ofList (w.blocks.map Block.toJson)),
    ("selected_block_id".toList, ofOption w.selected)]

/-- A document holds one workspace. -/
def documentRecord : Json.Record (Option Workspace) Workspace where
  name := "WorkspaceDoc".toList
  fields := [field "workspace" .required record.read id fun _ w => some w]
  start := none
  build := id

/-- The JSON document of a workspace. -/
def toDocument (w : Workspace) : Text :=
  Json.pretty (ofFields [("workspace".toList, w.toJson)])

/-- The workspace of a JSON document. -/
def ofDocument (s : Text) : Except Json.Problem Workspace :=
  Json.readDocument documentRecord.read s

end Workspace
end BlockCanvas
