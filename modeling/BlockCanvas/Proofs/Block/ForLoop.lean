import BlockCanvas.Block.Palette
import BlockCanvas.Proofs.Block.Filling
import BlockCanvas.Proofs.Block.Fragments
import BlockCanvas.Proofs.Program.Loop

/-!
# Loops of the palette

The block of a loop is filled in to a header and, on the next line, its action.  Whatever word the
variable is, the header is taken as one, so the block runs as its range says: the numbers are
printed, and then the action is run once, from the table in which the variable is bound to the last
of them.  Main statement: `execute_forLoop`.
-/

namespace BlockCanvas

open Text (IsWord IsDigits BraceFree)

/-- The block that a template makes at a place, with values for its inputs. -/
def Template.filledWith (t : Template) (values : List Text) (id : Text) (x y : Binary64) : Block :=
  { t.instantiate id x y with
    inputs := List.zipWith (fun i value => { i with value := some value }) t.inputs values }

theorem Text.IsWord.braceFree {s : Text} (h : IsWord s) : BraceFree s :=
  ⟨h.notMem (by decide), h.notMem (by decide)⟩

theorem Input.contribution_mk (id label : Text) (kind : PortKind) {value : Text}
    (ne_nil : value ≠ []) : (⟨id, label, kind, some value⟩ : Input).contribution = value := by
  have filled : (⟨id, label, kind, some value⟩ : Input).filled? = some value := by
    simpa [filled?, Option.filter] using ne_nil
  rw [contribution, filled]

namespace Block
open Segment

/-- The template of a loop: a header and its action. -/
def forLoopParts : List Segment :=
  [.plain "for ".toList (by decide), .hole "variable".toList (by decide),
    .plain " in range(".toList (by decide), .hole "start".toList (by decide),
    .plain ", ".toList (by decide), .hole "end".toList (by decide),
    .plain "):\n    ".toList (by decide), .hole "action".toList (by decide)]

/-- The inputs of a loop of the palette with their values. -/
def forLoopInputs (v start stop action : Text) : List Input :=
  [⟨"variable".toList, "Variable".toList, .string, some v⟩,
    ⟨"start".toList, "Start".toList, .number, some start⟩,
    ⟨"end".toList, "End".toList, .number, some stop⟩,
    ⟨"action".toList, "Action".toList, .any, some action⟩]

theorem filledWith_forLoop {t : Template} (offered : Palette.find? "for_loop".toList = some t)
    (v start stop action id : Text) (x y : Binary64) :
    (t.filledWith [v, start, stop, action] id x y).template = some (flatTemplate forLoopParts) ∧
      (t.filledWith [v, start, stop, action] id x y).inputs =
        forLoopInputs v start stop action := by
  obtain rfl := Option.some.inj offered
  exact ⟨rfl, rfl⟩

/-- A loop of the palette is rendered as its header, and its action on the next line. -/
theorem render_forLoop {t : Template} (offered : Palette.find? "for_loop".toList = some t)
    (id : Text) (x y : Binary64) {v start stop action : Text} (word : IsWord v)
    (first : IsDigits start) (last : IsDigits stop) (nonempty : action ≠ [])
    (braceFree : BraceFree action) :
    (t.filledWith [v, start, stop, action] id x y).render =
      Statement.header v start stop ++ '\n' :: ("    ".toList ++ action) := by
  obtain ⟨template, inputs⟩ := filledWith_forLoop offered v start stop action id x y
  have ids : ∀ i ∈ forLoopInputs v start stop action, BraceFree i.id := by
    simp only [forLoopInputs, List.forall_mem_cons]
    exact ⟨by decide, by decide, by decide, by decide, fun _ h => absurd h List.not_mem_nil⟩
  have texts : ∀ i ∈ forLoopInputs v start stop action, BraceFree i.contribution := by
    simp only [forLoopInputs, List.forall_mem_cons, Input.contribution_mk, word.ne_nil,
      first.ne_nil, last.ne_nil, nonempty, ne_eq, not_false_iff]
    exact ⟨word.braceFree, first.isWord.braceFree, last.isWord.braceFree, braceFree,
      fun _ h => absurd h List.not_mem_nil⟩
  have parts : forLoopParts.flatMap (filled (forLoopInputs v start stop action)) =
      Statement.header v start stop ++ '\n' :: ("    ".toList ++ action) := by
    simp [forLoopParts, filled, forLoopInputs, Statement.header, Input.contribution_mk,
      word.ne_nil, first.ne_nil, last.ne_nil, nonempty]
  rw [render_of_template _ template, inputs, if_neg, fill_flatTemplate ids
    (filledApart_of_braceFree ids texts), parts]
  rintro (h | h) <;> cases h

end Block

namespace Program

open BlockCanvas.Action Statement

/-- A loop of the palette, as the only block, runs as its range.  More numbers than the limit allows
are a fault before any output.  Otherwise the numbers are printed in order, and then the action does
what it does from the table in which the variable is bound to the 64-bit number nearest to the last
of them, or from the empty table if there is none. -/
theorem execute_forLoop (config : Config) (t : Template)
    (offered : Palette.find? "for_loop".toList = some t) (id : Text) (x y : Binary64)
    (v start stop action : Text) (word : IsWord v) (first : IsDigits start) (last : IsDigits stop)
    (low : Text.decimalValue start < 2 ^ 63) (high : Text.decimalValue stop < 2 ^ 63)
    (nonempty : action ≠ []) (braceFree : BraceFree action) :
    let source := synthesize [t.filledWith [v, start, stop, action] id x y]
    let body := (perform config (programLines action)).on
      (if Text.decimalValue start < Text.decimalValue stop then
        Bindings.empty.bind v (.number (.ofNat (Text.decimalValue stop - 1))) else .empty)
    (config.maxLoopIterations < Text.decimalValue stop - Text.decimalValue start →
      execute config source = ⟨[], some (Failure.message ⟨header v start stop, .forRange,
        .rangeTooLong (Text.decimalValue start) (Text.decimalValue stop)
          (Text.decimalValue stop - Text.decimalValue start) config.maxLoopIterations⟩)⟩) ∧
    (Text.decimalValue stop - Text.decimalValue start ≤ config.maxLoopIterations →
      execute config source =
        ⟨trace v (Text.decimalValue start) (Text.decimalValue stop) ++ body.printed,
          body.report.error⟩) := by
  intro source body
  have lines : programLines source = header v start stop :: programLines action := by
    have indented : programLines ("    ".toList ++ action) = programLines action := by
      show programLines (' ' :: ' ' :: ' ' :: ' ' :: action) = _
      rw [programLines_cons_blank, programLines_cons_blank, programLines_cons_blank,
        programLines_cons_blank]
      all_goals decide
    show programLines (synthesize _) = _
    rw [synthesize_singleton,
      Block.render_forLoop offered id x y word first last nonempty braceFree,
      programLines_header_append word first last, indented]
  rw [execute, run, lines]
  constructor
  · intro many
    rw [perform_cons_of_error (step_header_of_lt word first last low high .empty many)]
    rfl
  · intro few
    rw [perform_cons_of_ok (step_header word first last low high .empty few)]
    rfl

/-- The variable is a keyword, the digits start with zeros, and the action has two lines, the second
of which is not run under the lower limit. -/
theorem execute_forLoop_keyword :
    ∃ t, Palette.find? "for_loop".toList = some t ∧ IsWord "input".toList ∧ IsDigits "07".toList ∧
      IsDigits "10".toList ∧ Text.decimalValue "07".toList < 2 ^ 63 ∧
      Text.decimalValue "10".toList < 2 ^ 63 ∧ "print(input)\nx = 1 / 0".toList ≠ [] ∧
      BraceFree "print(input)\nx = 1 / 0".toList ∧
      ({ maxLoopIterations := 2 } : Config).maxLoopIterations <
        Text.decimalValue "10".toList - Text.decimalValue "07".toList ∧
      Text.decimalValue "10".toList - Text.decimalValue "07".toList ≤
        ({} : Config).maxLoopIterations ∧
      execute { maxLoopIterations := 2 } (synthesize [t.filledWith ["input".toList,
          "07".toList, "10".toList, "print(input)\nx = 1 / 0".toList] "a".toList (.zero false)
          (.zero false)]) =
        ⟨[], some ("ERROR: for-range `for input in range(07, 10):`: ".toList ++
          "range(7, 10) would run 3 times, more than the limit of 2".toList)⟩ ∧
      execute {} (synthesize [t.filledWith ["input".toList, "07".toList, "10".toList,
          "print(input)\nx = 1 / 0".toList] "a".toList (.zero false) (.zero false)]) =
        ⟨["input = 7".toList, "input = 8".toList, "input = 9".toList, "9".toList],
          some "ERROR: assignment `x = 1 / 0`: division by zero: 1 / 0".toList⟩ := by
  have offered : ∃ t, Palette.find? "for_loop".toList = some t :=
    Option.isSome_iff_exists.1 (by decide +kernel)
  obtain ⟨t, offered⟩ := offered
  have word : IsWord "input".toList := by decide
  have first : IsDigits "07".toList := by decide
  have last : IsDigits "10".toList := by decide
  have low : Text.decimalValue "07".toList = 7 := by decide +kernel
  have high : Text.decimalValue "10".toList = 10 := by decide +kernel
  have runs (config : Config) := execute_forLoop config t offered "a".toList (.zero false)
    (.zero false) "input".toList "07".toList "10".toList "print(input)\nx = 1 / 0".toList word first
    last (by rw [low]; decide) (by rw [high]; decide) (by decide) (by decide)
  refine ⟨t, offered, word, first, last, by rw [low]; decide, by rw [high]; decide, by decide,
    by decide, by rw [low, high]; decide, by rw [low, high]; decide, ?_, ?_⟩
  · rw [(runs _).1 (by rw [low, high]; decide), low, high]
    decide +kernel
  · rw [(runs _).2 (by rw [low, high]; decide), low, high]
    decide +kernel

end Program
end BlockCanvas
