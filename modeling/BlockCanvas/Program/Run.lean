import BlockCanvas.Program.Statement

/-!
# Runs

A run looks at the lines of a program one after the other, whatever their indentation: bodies of
loops and conditions are lines like any other.  The first fault ends it.  A simulator runs one
program after the other, each of them from an empty table of bindings.
-/

namespace BlockCanvas

/-- What a run shows: the printed lines, and the error line if it was ended by a fault. -/
structure Report where
  output : List Text
  error : Option Text
deriving DecidableEq

/-- What marks the error line of a run. -/
def errorMark : Text := "ERROR: ".toList

/-- The error line of a failure: the rule, the line and the message of the fault. -/
def Failure.message (f : Failure) : Text :=
  errorMark ++ f.rule.name ++ " `".toList ++ f.line ++ "`: ".toList ++ f.fault.message

def Report.isOk (r : Report) : Bool := r.error.isNone

/-- The fault that ended a run, if it was ended by one. -/
def Effect.failure? (e : Effect Failure Unit) : Option Failure :=
  match e.result with
  | .ok _ => none
  | .error f => some f

def Effect.report (e : Effect Failure Unit) : Report := ⟨e.printed, e.failure?.map Failure.message⟩

namespace Program

/-- Whether a trimmed line is part of a program: blank lines and comments are not. -/
def isStatement : Text → Bool
  | [] => false
  | c :: _ => c != '#'

/-- The lines of a program that a run looks at, without the blanks around them. -/
def programLines (source : Text) : List Text :=
  ((Text.lines source).map Text.trim).filter isStatement

/-- The lines of a program, one after the other. -/
def perform (config : Config) (lines : List Text) : Action Failure Unit :=
  .forEach (Statement.step config) lines

/-- The run of a program from an empty table of bindings. -/
def run (config : Config) (source : Text) : Effect Failure Unit :=
  (perform config (programLines source)).on .empty

/-- What the run of a program shows. -/
def execute (config : Config) (source : Text) : Report := (run config source).report

end Program

/-! ### One run after the other -/

/-- What runs programs under one configuration, with the bindings that the last run left. -/
structure Simulator where
  config : Config
  bindings : Bindings

namespace Simulator

/-- A simulator that has run nothing. -/
def fresh (config : Config) : Simulator := ⟨config, .empty⟩

/-- Forgets the bindings of the last run. -/
def reset (s : Simulator) : Simulator := { s with bindings := .empty }

/-- Runs a program: the report of the run, and the simulator after it. -/
def execute (s : Simulator) (source : Text) : Report × Simulator :=
  let s := s.reset
  let effect := (Program.perform s.config (Program.programLines source)).on s.bindings
  (effect.report, { s with bindings := effect.bindings })

/-- What a run shows does not depend on the runs before it. -/
theorem execute_fst (s : Simulator) (source : Text) :
    (s.execute source).1 = Program.execute s.config source := rfl

theorem config_execute (s : Simulator) (source : Text) :
    (s.execute source).2.config = s.config := rfl

end Simulator
end BlockCanvas
