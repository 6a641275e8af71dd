import BlockCanvas.Canvas.Workspace

/-!
# Edits

What a user does on the canvas, one thing after the other, as data: blocks are added, the block with
an id is moved, filled in or deleted, and something is selected.  An edit that is refused changes
nothing.
-/

namespace BlockCanvas

/-- What is done to the block with an id. -/
inductive Edit where
  | move (x y : Binary64)
  /-- Sets the value of an input. -/
  | update (name value : Text)
  | delete
deriving DecidableEq

/-- What is done on the canvas. -/
inductive Operation where
  /-- Adds a block made from a template, under an id that the caller provides. -/
  | add (t : Template) (id : Text) (x y : Binary64)
  | edit (id : Text) (e : Edit)
  | select (id : Option Text)
deriving DecidableEq

namespace Workspace

/-- The workspace after a change of it that gives nothing back. -/
def settle (w : Workspace) :
    Except EditError Workspace → Except EditError (Option Block) × Workspace
  | .ok w' => (.ok none, w')
  | .error e => (.error e, w)

/-- What an edit of the block with an id gives back, and the workspace after it.  Only a deletion
gives something back: the block. -/
def edit (w : Workspace) (id : Text) : Edit → Except EditError (Option Block) × Workspace
  | .move x y => w.settle (w.move id x y)
  | .update name value => w.settle (w.update id name value)
  | .delete =>
    match w.delete id with
    | .ok (w', block) => (.ok (some block), w')
    | .error e => (.error e, w)

/-- The workspace after an operation. -/
def operate (w : Workspace) : Operation → Workspace
  | .add t id x y => w.add t id x y
  | .edit id e => (w.edit id e).2
  | .select id => w.select id

/-- The workspace after operations, one after the other. -/
def after (w : Workspace) (operations : List Operation) : Workspace := operations.foldl operate w

/-- The ids of the blocks, in their order. -/
def ids (w : Workspace) : List Text := w.blocks.map Block.id

end Workspace
end BlockCanvas
