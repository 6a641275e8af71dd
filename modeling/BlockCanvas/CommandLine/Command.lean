import BlockCanvas.Block.Palette
import BlockCanvas.CommandLine.Arguments
import BlockCanvas.CommandLine.Path
import BlockCanvas.Document.Binary
import BlockCanvas.Document.Runs

/-!
# Commands

What each command makes of the contents of the file that it reads: it ends with a response, or it
writes a file first.
-/

namespace BlockCanvas
namespace CommandLine

/-- What a finished command leaves: its exit code, its output and its messages. -/
structure Response where
  code : Nat
  output : Text
  messages : List Text
deriving DecidableEq

/-- What a command does after it has read its file. -/
inductive Action where
  | finish (response : Response)
  /-- Writes a file; the response depends on whether that succeeds. -/
  | write (path : Text) (contents : Bytes) (done failed : Response)

/-- Why a file is not read as a workspace. -/
inductive LoadError where
  | unreadable
  | notUtf8
  | json (p : Json.Problem)
  | binary (p : Binary.Problem)

/-- The workspace in a file; the extension of the path decides how it is written. -/
def loadWorkspace (path : Text) (contents : Option Bytes) : Except LoadError Workspace :=
  match contents with
  | none => .error .unreadable
  | some bytes =>
    if Path.isBinary path then
      match Workspace.ofBinary bytes with
      | .ok w => .ok w
      | .error p => .error (.binary p)
    else
      match Utf8.decode? bytes with
      | none => .error .notUtf8
      | some s =>
        match Workspace.ofDocument s with
        | .ok w => .ok w
        | .error p => .error (.json p)

/-- The contents of a file with a workspace. -/
def saveWorkspace (path : Text) (w : Workspace) : Bytes :=
  if Path.isBinary path then w.toBinary else Utf8.encode w.toDocument

/-! ### Texts -/

def tool : Text := "[blockstudio] ".toList

def failure (messages : List Text) (message : Text) : Response :=
  ⟨1, [], messages ++ ["Error: ".toList ++ message]⟩

/-- The warning about a block whose template has placeholders that no input fills. -/
def warning? (block : Block) : Option Text :=
  match block.unmatchedPlaceholders with
  | [] => none
  | names =>
    some (tool ++ "Warning: block '".toList ++ block.label ++ "' (".toList ++ block.id ++
      ") has placeholders with no input: ".toList ++ ", ".toList.intercalate names)

def warnings (w : Workspace) : List Text := w.blocks.filterMap warning?

/-- Lines of output, each ended by a line feed. -/
def outputLines (lines : List Text) : Text := lines.flatMap (· ++ ['\n'])

/-- A text filled up with spaces. -/
def padded (width : Nat) (s : Text) : Text := s ++ List.replicate (width - s.length) ' '

/-- A template in the list of all templates: its line feeds are written as escapes. -/
def catalogLine (t : Template) : Text :=
  "  ".toList ++ padded 16 t.type ++ [' '] ++ padded 16 t.label ++ [' '] ++
    Text.replaceAll ['\n'] "\\n".toList (t.template.getD [])

/-- The list of all templates, under the headings of their categories. -/
def catalogLines : List Text :=
  Palette.groups.flatMap fun (c, templates) =>
    (c.heading ++ " [".toList ++ c.color ++ [']']) :: templates.map catalogLine

/-- The report of a run as a JSON document. -/
def reportText (r : Report) : Text := Json.pretty r.toJson

/-! ### Commands -/

/-- The file that a command reads. -/
def Command.source? : Command → Option Text
  | .catalog => none
  | .generate workspace | .run workspace _ => some workspace
  | .exec source _ => some source
  | .convert input _ => some input

/-- Goes on with the workspace in a file and the warnings about it. -/
def withWorkspace (path : Text) (contents : Option Bytes)
    (next : Workspace → List Text → Action) : Action :=
  match loadWorkspace path contents with
  | .ok w => next w (warnings w)
  | .error _ => .finish (failure [] ("Failed to load workspace ".toList ++ path))

/-- What the run of a workspace prints. -/
def runLines (w : Workspace) (o : Options) : List Text :=
  if o.json then [reportText (Program.execute o.config (Program.synthesize w.blocks))]
  else Session.consoleOf o.config w

/-- What the run of a program text prints; without fault there is no header. -/
def execLines (s : Text) (o : Options) : List Text :=
  let r := Program.execute o.config s
  if o.json then [reportText r] else r.error.toList ++ r.output

/-- What a command does with the contents of the file that it reads. -/
def Command.act (c : Command) (contents : Option Bytes) : Action :=
  match c with
  | .catalog => .finish ⟨0, outputLines catalogLines, []⟩
  | .generate path =>
    withWorkspace path contents fun w messages =>
      .finish ⟨0, outputLines [Program.synthesize w.blocks], messages⟩
  | .run path o =>
    withWorkspace path contents fun w messages =>
      .finish ⟨0, outputLines (runLines w o), messages⟩
  | .exec path o =>
    match contents.bind Utf8.decode? with
    | some s => .finish ⟨0, outputLines (execLines s o), []⟩
    | none => .finish (failure [] ("Open ".toList ++ path))
  | .convert input output =>
    withWorkspace input contents fun w messages =>
      .write output (saveWorkspace output w)
        ⟨0, [], messages ++ [tool ++ "Wrote ".toList ++ Text.ofNat w.blocks.length ++
          " block(s) to ".toList ++ output]⟩
        (failure messages ("Failed to write ".toList ++ output))

/-- Performs a command in a directory. -/
def Command.perform (c : Command) (d : Directory) : Response × Directory :=
  match c.act (c.source?.bind d.read?) with
  | .finish r => (r, d)
  | .write path contents done failed =>
    match d.write? path contents with
    | some d => (done, d)
    | none => (failed, d)

/-- The exit code for arguments that are not understood. -/
def usageCode : Nat := 2

def usage : Text :=
  "Usage: blockstudio <COMMAND>\n\nCommands: catalog, generate, run, exec, convert\n".toList

def versionText : Text := "blockstudio 0.1.0\n".toList

/-- Answers the arguments of the program in a directory. -/
def respond (args : List Text) (d : Directory) : Response × Directory :=
  match parse args with
  | .perform c => c.perform d
  | .help => (⟨0, usage, []⟩, d)
  | .version => (⟨0, versionText, []⟩, d)
  | .unusable => (⟨usageCode, [], [usage]⟩, d)

end CommandLine
end BlockCanvas
