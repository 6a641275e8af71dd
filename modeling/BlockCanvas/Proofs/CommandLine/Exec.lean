import BlockCanvas.Proofs.CommandLine.Convert
import BlockCanvas.Proofs.Text.Line

/-!
# Generated programs

`generate` ends what it prints with a line feed, which a run does not see.  So a file with the text
that `generate` prints for a workspace is executed as `run` executes the workspace; the commands
differ in the header of a run without fault, which only `run` prints.

Main statement: `perform_exec_generated`.
-/

namespace BlockCanvas

/-- A line feed at the end of a program makes no difference. -/
theorem Program.execute_append_lineFeed (config : Config) (s : Text) :
    execute config (s ++ ['\n']) = execute config s := by
  refine execute_congr ?_ config
  rw [programLines_append]
  exact List.append_nil _

namespace CommandLine

theorem outputLines_singleton (line : Text) : outputLines [line] = line ++ ['\n'] :=
  List.flatMap_singleton _ line

theorem execLines_append_lineFeed (s : Text) (o : Options) :
    execLines (s ++ ['\n']) o = execLines s o := by
  simp only [execLines, Program.execute_append_lineFeed]

variable {d : Directory} {path source : Text} {w : Workspace}

theorem perform_exec {s : Text} (found : d.read? source = some (Utf8.encode s)) (o : Options) :
    (Command.exec source o).perform d = (⟨0, outputLines (execLines s o), []⟩, d) := by
  simp only [Command.perform, Command.act, Command.source?, Option.bind_some, found,
    Utf8.decode?_encode]

/-- A file with what `generate` prints is executed as the program of the workspace. -/
theorem perform_exec_of_generate (loaded : loadWorkspace path (d.read? path) = .ok w)
    (written : d.read? source = some (Utf8.encode ((Command.generate path).perform d).1.output))
    (o : Options) : (Command.exec source o).perform d =
      (⟨0, outputLines (execLines (Program.synthesize w.blocks) o), []⟩, d) := by
  rw [(shows_of_load loaded).generate, outputLines_singleton] at written
  rw [perform_exec written, execLines_append_lineFeed]

theorem runLines_of_blocks {o : Options} (raw : o.json = false) (blocks : w.blocks ≠ []) :
    runLines w o = Session.header (Program.execute o.config (Program.synthesize w.blocks)) := by
  have nonempty : w.isEmpty = false := by rwa [Workspace.isEmpty, List.isEmpty_eq_false_iff]
  simp only [runLines, raw, Session.consoleOf_eq, nonempty, Bool.false_eq_true, if_false]

/-- The run of a workspace and the execution of a file with the program that is generated for it
print the same report as a JSON document.  Otherwise, and if there are blocks, the run prints the
error or the message of success and then the output; the execution prints the same without the
message of success. -/
theorem perform_exec_generated (d : Directory) (path source : Text) (w : Workspace)
    (maxIterations : Option Nat) (inputAnswer : Option Text)
    (loaded : loadWorkspace path (d.read? path) = .ok w)
    (written :
      d.read? source = some (Utf8.encode ((Command.generate path).perform d).1.output)) :
    let o (json : Bool) : Options := ⟨json, maxIterations, inputAnswer⟩
    let r := Program.execute (o true).config (Program.synthesize w.blocks)
    (Command.run path (o true)).perform d = (⟨0, outputLines [reportText r], warnings w⟩, d) ∧
      (Command.exec source (o true)).perform d = (⟨0, outputLines [reportText r], []⟩, d) ∧
      (w.blocks ≠ [] → (Command.run path (o false)).perform d =
        (⟨0, outputLines (r.error.getD Session.successMessage :: r.output), warnings w⟩, d)) ∧
      (Command.exec source (o false)).perform d =
        (⟨0, outputLines (r.error.toList ++ r.output), []⟩, d) := by
  intro o r
  have runs := (shows_of_load loaded).run
  have executes := perform_exec_of_generate loaded written
  refine ⟨runs (o true), executes (o true), ?_, executes (o false)⟩
  intro blocks
  rw [runs, runLines_of_blocks rfl blocks]
  rfl

/-- A workspace with one block, which asks a question. -/
def question : Workspace :=
  ⟨((Palette.find? "input".toList).map fun t =>
    t.instantiate ['q'] (.zero false) (.zero false)).toList, none⟩

def questionFiles : Directory :=
  ⟨[("q.json".toList, saveWorkspace "q.json".toList question),
    ("q.py".toList, Utf8.encode "input(\"Enter something: \")\n".toList)]⟩

theorem perform_exec_generated_question :
    loadWorkspace "q.json".toList (questionFiles.read? "q.json".toList) = .ok question.reread ∧
      questionFiles.read? "q.py".toList = some (Utf8.encode
        ((Command.generate "q.json".toList).perform questionFiles).1.output) ∧
      question.reread.blocks ≠ [] ∧
      ((Command.run "q.json".toList ⟨true, none, none⟩).perform questionFiles).1.output =
        ((Command.exec "q.py".toList ⟨true, none, none⟩).perform questionFiles).1.output ∧
      ((Command.run "q.json".toList ⟨false, none, some "me".toList⟩).perform
          questionFiles).1.output =
        outputLines [Session.successMessage, ">>> Enter something: ".toList, "me".toList] ∧
      ((Command.exec "q.py".toList ⟨false, none, some "me".toList⟩).perform
          questionFiles).1.output =
        outputLines [">>> Enter something: ".toList, "me".toList] := by
  have loaded : loadWorkspace "q.json".toList (questionFiles.read? "q.json".toList) =
      .ok question.reread :=
    loadWorkspace_saveWorkspace_json (by decide) (by decide +kernel)
  have program : Program.synthesize question.reread.blocks =
      "input(\"Enter something: \")".toList := by decide +kernel
  have written : questionFiles.read? "q.py".toList = some (Utf8.encode
      ((Command.generate "q.json".toList).perform questionFiles).1.output) := by
    rw [(shows_of_load loaded).generate, program]
    rfl
  have blocks : question.reread.blocks ≠ [] := by decide +kernel
  have report : Program.execute (Options.config ⟨true, none, some "me".toList⟩)
      (Program.synthesize question.reread.blocks) =
        ⟨[">>> Enter something: ".toList, "me".toList], none⟩ := by
    rw [program]
    decide +kernel
  obtain ⟨runs, executes, -, -⟩ := perform_exec_generated _ _ _ _ none none loaded written
  obtain ⟨-, -, runsRaw, executesRaw⟩ :=
    perform_exec_generated _ _ _ _ none (some "me".toList) loaded written
  rw [report] at runsRaw executesRaw
  refine ⟨loaded, written, blocks, ?_, ?_, ?_⟩
  · rw [runs, executes]
  · rw [runsRaw blocks]
    rfl
  · rw [executesRaw]
    rfl

end CommandLine
end BlockCanvas
