import BlockCanvas.Block.Palette
import BlockCanvas.Canvas.Grid
import BlockCanvas.Canvas.Session
import BlockCanvas.Document.Blocks
import BlockCanvas.Text.Utf8

/-!
# Steps of a session

What can be done in a session, and what comes of it.  A step that fails changes nothing.
-/

namespace BlockCanvas
namespace Session

inductive Step where
  /-- Adds a block of a type of the palette, under an id that the caller provides. -/
  | add (type id : Text) (x y : Binary64)
  /-- Adds a block where it lands when it is dropped at a pointer position. -/
  | drop (type id : Text) (pointerX pointerY originX originY : Binary64)
  | place (block : Block)
  | move (id : Text) (x y : Binary64)
  | update (id name value : Text)
  | select (id : Option Text)
  | delete (id : Text)
  /-- Replaces the workspace by the one in a file, if the file can be read. -/
  | load (contents : Option Bytes)
  | save
  | run
  | clear

/-- What a step that succeeds gives back. -/
inductive Outcome where
  | done
  | added (id : Text)
  | deleted (block : Block)
  | saved (contents : Bytes)
  | shown (console : List Text)

/-- Why a step fails. -/
inductive StepError where
  | unknownType (type : Text)
  | edit (e : EditError)
  | unreadable
  | notUtf8
  | document (p : Json.Problem)
  /-- A run is under way. -/
  | busy

/-- The session with another workspace. -/
def withWorkspace (s : Session) (w : Workspace) : Session := { s with workspace := w }

/-- The session after an edit of its workspace. -/
def edited (s : Session) : Except EditError Workspace → Except StepError Outcome × Session
  | .ok w => (.ok .done, s.withWorkspace w)
  | .error e => (.error (.edit e), s)

/-- Adds a block of a type of the palette. -/
def addOfType (s : Session) (type id : Text) (x y : Binary64) :
    Except StepError Outcome × Session :=
  match Palette.find? type with
  | some t => (.ok (.added id), s.withWorkspace (s.workspace.add t id x y))
  | none => (.error (.unknownType type), s)

/-- The workspace in the contents of a JSON file. -/
def readWorkspace : Option Bytes → Except StepError Workspace
  | none => .error .unreadable
  | some contents =>
    match Utf8.decode? contents with
    | none => .error .notUtf8
    | some s => (Workspace.ofDocument s).mapError .document

/-- What a step gives back, and the session after it. -/
def perform (s : Session) : Step → Except StepError Outcome × Session
  | .add type id x y => s.addOfType type id x y
  | .drop type id pointerX pointerY originX originY =>
    let (x, y) := Grid.drop pointerX pointerY originX originY
    s.addOfType type id x y
  | .place block => (.ok .done, s.withWorkspace (s.workspace.place block))
  | .move id x y => s.edited (s.workspace.move id x y)
  | .update id name value => s.edited (s.workspace.update id name value)
  | .select id => (.ok .done, s.withWorkspace (s.workspace.select id))
  | .delete id =>
    match s.workspace.delete id with
    | .ok (w, block) => (.ok (.deleted block), s.withWorkspace w)
    | .error e => (.error (.edit e), s)
  | .load contents =>
    match readWorkspace contents with
    | .ok w => (.ok .done, s.withWorkspace w)
    | .error e => (.error e, s)
  | .save => (.ok (.saved (Utf8.encode s.workspace.toDocument)), s)
  | .run =>
    match s.run with
    | some s => (.ok (.shown s.console), s)
    | none => (.error .busy, s)
  | .clear => (.ok .done, s.clear)

/-- The session after steps, one after the other. -/
def after (s : Session) (steps : List Step) : Session :=
  steps.foldl (fun s step => (s.perform step).2) s

end Session
end BlockCanvas
