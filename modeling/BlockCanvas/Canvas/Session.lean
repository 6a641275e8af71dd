import BlockCanvas.Canvas.Workspace
import BlockCanvas.Block.Fragment
import BlockCanvas.Program.Run

/-!
# Editing sessions

A session holds a workspace, a simulator and a console, and runs the program of the workspace on
demand.  The console shows the last run: a header, which is the error line or a message of success,
and what the program printed.
-/

namespace BlockCanvas

/-- How a console line is styled. -/
inductive LineKind where
  | error | echo | output
deriving DecidableEq

namespace LineKind

def all : List LineKind := [.error, .echo, .output]

def name : LineKind → Text
  | .error => "Error".toList
  | .echo => "Echo".toList
  | .output => "Output".toList

/-- The kind of a console line, by its first characters. -/
def classify (line : Text) : LineKind :=
  if (Text.trimEnd errorMark).isPrefixOf line then .error
  else if Statement.echoMark.isPrefixOf line then .echo
  else .output

end LineKind

structure Session where
  workspace : Workspace
  simulator : Simulator
  console : List Text
  running : Bool

namespace Session

/-- The console of a workspace without blocks. -/
def noCodeMessage : Text := "❌ No code to run! Add some blocks to the workspace first.".toList

/-- The header of a run without fault. -/
def successMessage : Text := "🎉 Code executed successfully!".toList

/-- A session on a workspace, with an empty console. -/
def ofWorkspace (workspace : Workspace) (config : Config) : Session :=
  ⟨workspace, .fresh config, [], false⟩

/-- The program of the workspace. -/
def preview (s : Session) : Text := Program.synthesize s.workspace.blocks

/-- What the console shows of a run: its error line or the message of success, then its output. -/
def header (r : Report) : List Text := r.error.getD successMessage :: r.output

/-- Runs the program of the workspace on the simulator, and shows the run on the console. -/
def runProgram (s : Session) : Session :=
  if s.workspace.isEmpty then { s with console := [noCodeMessage] }
  else
    let (r, simulator) := s.simulator.execute s.preview
    { s with simulator, console := header r }

/-- Runs the program of the workspace, unless a run is under way. -/
def run (s : Session) : Option Session :=
  if s.running then none
  else
    let s := runProgram { s with running := true }
    some { s with running := false }

def clear (s : Session) : Session := { s with console := [] }

/-- What a new session on a workspace shows after a run. -/
def consoleOf (config : Config) (w : Workspace) : List Text :=
  match (ofWorkspace w config).run with
  | some s => s.console
  | none => []

/-! ### What runs do -/

@[simp]
theorem workspace_runProgram (s : Session) : s.runProgram.workspace = s.workspace := by
  unfold runProgram
  split <;> rfl

@[simp]
theorem config_runProgram (s : Session) : s.runProgram.simulator.config = s.simulator.config := by
  unfold runProgram
  split
  · rfl
  · exact Simulator.config_execute _ _

theorem console_runProgram (s : Session) : s.runProgram.console =
    if s.workspace.isEmpty then [noCodeMessage]
    else header (Program.execute s.simulator.config s.preview) := by
  unfold runProgram
  split
  · rfl
  · exact congrArg header (Simulator.execute_fst _ _)

/-- A session in which no run is under way is run to its end. -/
theorem run_eq_some {s : Session} (idle : s.running = false) :
    s.run = some { runProgram { s with running := true } with running := false } := by
  rw [run, idle]
  rfl

theorem consoleOf_eq (config : Config) (w : Workspace) : consoleOf config w =
    if w.isEmpty then [noCodeMessage]
    else header (Program.execute config (Program.synthesize w.blocks)) := by
  rw [consoleOf, run_eq_some rfl]
  exact console_runProgram _

end Session
end BlockCanvas
