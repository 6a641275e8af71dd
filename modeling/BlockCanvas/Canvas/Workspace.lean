import BlockCanvas.Block.Basic

/-!
# The workspace

The blocks on the canvas, in the order in which they were placed, and which of them is selected.
Blocks are named by their ids; where several have one id, the first of them is meant.
-/

namespace BlockCanvas

structure Workspace where
  blocks : List Block
  selected : Option Text
deriving DecidableEq

/-- Why an edit was refused. -/
inductive EditError where
  | unknownBlock (id : Text)
  | unknownInput (id name : Text)
deriving DecidableEq

def EditError.message : EditError → Text
  | .unknownBlock id => "unknown block id: ".toList ++ id
  | .unknownInput id name => "block ".toList ++ id ++ " has no input named ".toList ++ name

namespace Workspace

def empty : Workspace := ⟨[], none⟩

def isEmpty (w : Workspace) : Bool := w.blocks.isEmpty

/-- The first block with an id. -/
def block? (w : Workspace) (id : Text) : Option Block := w.blocks.find? fun block => block.id == id

/-- Changes the first item that fits, if there is one and the change succeeds; `missing` is the
error if there is none. -/
def modifyFirst {α ε : Type} (fits : α → Bool) (missing : ε) (change : α → Except ε α) :
    List α → Except ε (List α)
  | [] => .error missing
  | a :: rest =>
    if fits a then (change a).map (· :: rest)
    else (modifyFirst fits missing change rest).map (a :: ·)

/-- Changes the first block with an id. -/
def modify (w : Workspace) (id : Text) (change : Block → Except EditError Block) :
    Except EditError Workspace :=
  (modifyFirst (fun block => block.id == id) (.unknownBlock id) change w.blocks).map fun blocks =>
    { w with blocks }

/-- Places a block after all others. -/
def place (w : Workspace) (block : Block) : Workspace := { w with blocks := w.blocks ++ [block] }

/-- Places a new block made from a template, under an id that the caller provides. -/
def add (w : Workspace) (t : Template) (id : Text) (x y : Binary64) : Workspace :=
  w.place (t.instantiate id x y)

/-- Moves a block. -/
def move (w : Workspace) (id : Text) (x y : Binary64) : Except EditError Workspace :=
  w.modify id fun block => .ok { block with x, y }

/-- Sets the value of the first input of a block that has the given id. -/
def update (w : Workspace) (id name value : Text) : Except EditError Workspace :=
  w.modify id fun block =>
    (modifyFirst (fun i => i.id == name) (.unknownInput id name)
      (fun i => .ok { i with value := some value }) block.inputs).map fun inputs =>
        { block with inputs }

/-- Selects what has this id, or nothing. -/
def select (w : Workspace) (id : Option Text) : Workspace := { w with selected := id }

/-- The block that is selected, if there is one with that id. -/
def selectedBlock (w : Workspace) : Option Block := w.selected.bind w.block?

/-- Removes the first block with an id and returns it; a selection of this id is cleared. -/
def delete (w : Workspace) (id : Text) : Except EditError (Workspace × Block) :=
  match w.block? id with
  | none => .error (.unknownBlock id)
  | some block =>
    .ok (⟨w.blocks.eraseP fun b => b.id == id, if w.selected = some id then none else w.selected⟩,
      block)

end Workspace
end BlockCanvas
