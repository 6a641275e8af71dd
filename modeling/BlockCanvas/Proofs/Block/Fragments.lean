import Mathlib.Data.List.Flatten
import BlockCanvas.Program.Run
import BlockCanvas.Proofs.Block.Rows
import BlockCanvas.Proofs.Program.Layout

/-!
# The fragments of a program

A program is run as its fragments are, one after the other: the blank lines between them keep the
lines of one fragment apart from those of the next, however a fragment ends.

A block that has nothing to fill in is shown as a comment with its label, and of a comment only the
first line is one: a label of several lines adds its other lines to the program.

Main statements: `programLines_synthesize_topDown`, `execute_without_comments`.
-/

namespace BlockCanvas
namespace Program

/-! ### Joined fragments -/

/-- The program lines of blocks are those of their fragments. -/
theorem programLines_synthesize (blocks : List Block) :
    programLines (synthesize blocks) =
      (inRows blocks).flatMap fun b => programLines b.render := by
  rw [synthesize]
  split
  case isTrue none =>
    have comment : programLines placeholderProgram = [] := by decide +kernel
    rw [none, comment, inRows, List.mergeSort_nil, List.flatMap_nil]
  case isFalse =>
    rw [← List.flatMap_map]
    exact programLines_intercalate programLines_lineFeed _

/-- The program lines of blocks are those of the fragments of the blocks, from top to bottom and
with blocks at one height in their old order. -/
theorem programLines_synthesize_topDown (blocks : List Block) :
    TopDown blocks (inRows blocks) ∧
      programLines (synthesize blocks) =
        (inRows blocks).flatMap fun b => programLines b.render :=
  ⟨topDown_inRows blocks, programLines_synthesize blocks⟩

end Program

/-! ### Comments -/

/-- Whether a block is shown as a comment: it has no template, an empty one, or no inputs. -/
def Block.isComment (b : Block) : Bool :=
  b.template = none ∨ b.template = some [] ∨ b.inputs = []

theorem Block.render_of_isComment {b : Block} (h : b.isComment) :
    b.render = "# ".toList ++ b.label := by
  have nothing : b.fillable? = none := by
    simp only [isComment, decide_eq_true_eq] at h
    unfold fillable?
    split
    case h_1 template present =>
      rw [present] at h
      exact if_pos (by simpa using h)
    case h_2 => rfl
  rw [render, nothing]

/-- The text after the first line feed. -/
def Text.afterFirstLine (s : Text) : Text :=
  match splitOnce ['\n'] s with
  | some (_, rest) => rest
  | none => []

theorem Text.afterFirstLine_append {first : Text} (h : '\n' ∉ first) (rest : Text) :
    afterFirstLine (first ++ '\n' :: rest) = rest := by
  rw [afterFirstLine, splitOnce_singleton h]

theorem Text.afterFirstLine_of_notMem {s : Text} (h : '\n' ∉ s) : afterFirstLine s = [] := by
  rw [afterFirstLine, splitOnce_of_notMem h]

namespace Program

/-- Only the first line of a comment is one. -/
theorem programLines_comment (label : Text) :
    programLines ("# ".toList ++ label) = programLines (Text.afterFirstLine label) := by
  show programLines ('#' :: ' ' :: label) = _
  by_cases more : '\n' ∈ label
  · obtain ⟨first, rest, rfl, one⟩ := List.eq_append_cons_of_mem more
    have one' : '\n' ∉ ' ' :: first := List.not_mem_cons_of_ne_of_not_mem (by decide) one
    rw [Text.afterFirstLine_append one, ← List.cons_append, ← List.cons_append,
      programLines_append, programLines_of_comment_line one', List.nil_append]
  · have more' : '\n' ∉ ' ' :: label := List.not_mem_cons_of_ne_of_not_mem (by decide) more
    rw [Text.afterFirstLine_of_notMem more, programLines_of_comment_line more']
    rfl

/-- The blocks that are not shown as comments. -/
def withoutComments (blocks : List Block) : List Block := blocks.filter fun b => !b.isComment

theorem flatMap_filter_eq_iff {α β : Type} {f : α → List β} {p : α → Bool} {as : List α} :
    (as.filter p).flatMap f = as.flatMap f ↔ ∀ a ∈ as, p a = false → f a = [] := by
  induction as with
  | nil => simp
  | cons a as ih =>
    rw [List.forall_mem_cons, ← ih]
    cases h : p a with
    | true =>
      rw [List.filter_cons_of_pos h, List.flatMap_cons, List.flatMap_cons,
        List.append_cancel_left_eq]
      simp
    | false =>
      rw [List.filter_cons_of_neg (by simp [h]), List.flatMap_cons]
      have shorter := (List.filter_sublist (p := p) (l := as)).flatMap f
      constructor
      · intro all
        have lengths := congrArg List.length all
        have := shorter.length_le
        rw [List.length_append] at lengths
        have empty : f a = [] := List.eq_nil_of_length_eq_zero (by omega)
        rw [empty] at all
        exact ⟨fun _ => empty, all⟩
      · rintro ⟨empty, rest⟩
        rw [empty rfl, rest, List.nil_append]

theorem programLines_withoutComments_iff (blocks : List Block) :
    programLines (synthesize (withoutComments blocks)) = programLines (synthesize blocks) ↔
      ∀ b ∈ blocks, b.isComment → programLines (Text.afterFirstLine b.label) = [] := by
  have same (b : Block) : b ∈ inRows blocks ↔ b ∈ blocks := (perm_inRows blocks).mem_iff
  rw [programLines_synthesize, programLines_synthesize, withoutComments, inRows_filter,
    flatMap_filter_eq_iff]
  simp only [same, Bool.not_eq_false']
  refine forall₃_congr fun b _ comment => ?_
  rw [Block.render_of_isComment comment, programLines_comment]

theorem synthesize_singleton (b : Block) : synthesize [b] = b.render := by
  rw [synthesize, if_neg (List.cons_ne_nil b []), inRows, List.mergeSort_singleton,
    List.map_singleton, List.intercalate_singleton]

/-- Removing the blocks that are shown as comments leaves the program lines as they are exactly if
no label of these blocks has a program line after its first line; no run then shows a
difference. -/
theorem execute_without_comments (blocks : List Block) :
    (programLines (synthesize (withoutComments blocks)) = programLines (synthesize blocks) ↔
      ∀ b ∈ blocks, b.isComment → programLines (Text.afterFirstLine b.label) = []) ∧
    ((∀ b ∈ blocks, b.isComment → programLines (Text.afterFirstLine b.label) = []) →
      ∀ config, execute config (synthesize (withoutComments blocks)) =
        execute config (synthesize blocks)) :=
  ⟨programLines_withoutComments_iff blocks,
    fun quiet => execute_congr ((programLines_withoutComments_iff blocks).2 quiet)⟩

/-- A block that is shown as a comment. -/
def remark (label : Text) : Block :=
  ⟨[], [], .io, label, [], [], .zero false, .zero false, none, [], []⟩

/-- A block that prints a number, below two remarks, of which one has several lines. -/
def remarked : List Block :=
  [{ remark "Print".toList with
      y := .infinity false
      template := some "print(\x7bm\x7d)".toList
      inputs := [⟨['m'], "Message".toList, .any, some ['1']⟩] },
    remark "print(2)".toList, remark "note\r\n\t# print(3)\n\n".toList]

theorem execute_without_comments_remarked :
    (∀ b ∈ remarked, b.isComment → programLines (Text.afterFirstLine b.label) = []) ∧
      programLines (synthesize (withoutComments remarked)) =
        programLines (synthesize remarked) ∧
      execute {} (synthesize (withoutComments remarked)) = execute {} (synthesize remarked) ∧
      execute {} (synthesize remarked) = ⟨[['1']], none⟩ := by
  have quiet : ∀ b ∈ remarked, b.isComment →
      programLines (Text.afterFirstLine b.label) = [] := by decide +kernel
  have printed : execute {} (synthesize (withoutComments remarked)) = ⟨[['1']], none⟩ := by
    have left : withoutComments remarked = [remarked.head (List.cons_ne_nil _ _)] := by
      decide +kernel
    rw [left, synthesize_singleton]
    decide +kernel
  obtain ⟨lines, runs⟩ := execute_without_comments remarked
  exact ⟨quiet, lines.2 quiet, runs quiet {}, (runs quiet {}).symm.trans printed⟩

/-- The second line of a label is run. -/
theorem not_execute_without_comments :
    ¬ ∀ (config : Config) (blocks : List Block),
      execute config (synthesize (withoutComments blocks)) =
        execute config (synthesize blocks) := by
  intro h
  have same := h {} [remark "note\nprint(1)".toList]
  have left : withoutComments [remark "note\nprint(1)".toList] = [] := by decide +kernel
  rw [left, synthesize_singleton, synthesize, if_pos rfl] at same
  exact absurd same (by decide +kernel)

end Program
end BlockCanvas
