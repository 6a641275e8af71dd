import BlockCanvas.Proofs.Text.Line
import BlockCanvas.Proofs.Text.Parts
import BlockCanvas.Proofs.Text.Replace

/-!
# The layout of a program

A run sees nothing of a program but its program lines.  These are a normal form: joined by line
feeds they are their own program lines again.  What the normal form leaves out is layout, that is
blanks around lines, blank lines, lines that are comments, and carriage returns at the ends of
lines; and nothing else is left out, since texts with the same program lines differ in their layout
only (`programLines_eq_iff_relaid`).

Main statement: `programLines_normalForm`.
-/

namespace BlockCanvas
namespace Text

/-! ### Line by line -/

/-- A text is one line, or a line, a line feed and the rest. -/
@[elab_as_elim]
theorem line_induction {motive : Text → Prop} (last : ∀ line, '\n' ∉ line → motive line)
    (more : ∀ line rest, '\n' ∉ line → motive rest → motive (line ++ '\n' :: rest))
    (s : Text) : motive s := by
  induction hn : s.length using Nat.strongRecOn generalizing s with
  | _ n ih =>
    by_cases feed : '\n' ∈ s
    · obtain ⟨line, rest, rfl, one⟩ := List.eq_append_cons_of_mem feed
      have shorter : rest.length < n := by
        rw [← hn]
        simp only [List.length_append, List.length_cons]
        omega
      exact more line rest one (ih _ shorter rest rfl)
    · exact last s feed

theorem notMem_of_mem_splitChar {sep : Char} {s piece : Text} (h : piece ∈ splitChar sep s) :
    sep ∉ piece := by
  induction s generalizing piece with
  | nil =>
    rw [List.mem_singleton.1 h]
    exact List.not_mem_nil
  | cons c s ih =>
    obtain ⟨first, rest, pieces⟩ := List.exists_cons_of_ne_nil (splitChar_ne_nil sep s)
    rw [splitChar, pieces] at h
    rw [pieces] at ih
    split at h
    case isTrue =>
      rcases List.mem_cons.1 h with rfl | later
      · exact List.not_mem_nil
      · exact ih later
    case isFalse other =>
      rcases List.mem_cons.1 h with rfl | later
      · exact List.not_mem_cons_of_ne_of_not_mem (Ne.symm other) (ih List.mem_cons_self)
      · exact ih (List.mem_cons_of_mem _ later)

/-! ### Blanks around a text -/

theorem head?_trimStart (s : Text) : ∀ c ∈ (trimStart s).head?, isBlank c = false := by
  intro c hc
  have stop := List.head?_dropWhile_not isBlank s
  rw [trimStart, Option.mem_def] at hc
  rw [hc] at stop
  simpa using stop

theorem head?_trim (s : Text) : ∀ c ∈ (trim s).head?, isBlank c = false := by
  intro c hc
  obtain ⟨rest, whole⟩ := trimEnd_isPrefix (trimStart s)
  refine head?_trimStart s c ?_
  rw [← whole]
  exact List.mem_head?_append_of_mem_head? hc

theorem getLast?_trim (s : Text) : ∀ c ∈ (trim s).getLast?, isBlank c = false := by
  intro c hc
  rw [trim, trimEnd, List.getLast?_reverse] at hc
  exact head?_trimStart _ c hc

/-- What is trimmed away are blanks at the two ends. -/
theorem exists_trim (s : Text) : ∃ left right : Text, s = left ++ trim s ++ right ∧
    (∀ c ∈ left, isBlank c) ∧ ∀ c ∈ right, isBlank c := by
  have start (t : Text) : ∃ left : Text, t = left ++ trimStart t ∧ ∀ c ∈ left, isBlank c :=
    ⟨t.takeWhile isBlank, List.takeWhile_append_dropWhile.symm,
      List.all_eq_true.1 List.all_takeWhile⟩
  obtain ⟨left, whole, blank⟩ := start s
  obtain ⟨right, whole', blank'⟩ := start (trimStart s).reverse
  refine ⟨left, right.reverse, ?_, blank, fun c hc => blank' c (List.mem_reverse.1 hc)⟩
  have ends : trimStart s = trim s ++ right.reverse := by
    rw [trim, trimEnd, ← List.reverse_append]
    exact List.reverse_eq_iff.1 whole'
  rw [List.append_assoc, ← ends]
  exact whole

end Text

namespace Program

open Text (isBlank)

variable {s t a b blanks line : Text}

/-! ### Program lines -/

theorem programLines_lineFeed (s : Text) : programLines ('\n' :: s) = programLines s :=
  programLines_append [] s

/-- Joined by line feeds, with blanks behind them or none, texts keep their program lines. -/
theorem programLines_intercalate {gap : Text}
    (blank : ∀ s, programLines (gap ++ s) = programLines s) (parts : List Text) :
    programLines (('\n' :: gap).intercalate parts) = parts.flatMap programLines := by
  induction parts with
  | nil => rfl
  | cons part parts ih =>
    cases parts with
    | nil => simp
    | cons next parts =>
      rw [List.intercalate_cons_cons, List.append_assoc, List.flatMap_cons, ← ih, List.cons_append,
        programLines_append, blank]

theorem isStatement_trim_comment (s : Text) : isStatement (Text.trim ('#' :: s)) = false := by
  have start : Text.trim ('#' :: s) <+: '#' :: s := by
    have kept : Text.trimStart ('#' :: s) = '#' :: s :=
      Text.trimStart_eq_self fun c hc => by cases hc; decide
    rw [Text.trim, kept]
    exact Text.trimEnd_isPrefix _
  rcases List.prefix_cons_iff.1 start with empty | ⟨rest, comment, -⟩
  · rw [empty]
    rfl
  · rw [comment]
    rfl

theorem programLines_line (one : '\n' ∉ line) : programLines line =
    if isStatement (Text.trim line) then [Text.trim line] else [] := by
  rw [programLines_eq, Text.splitChar_of_notMem one, List.map_singleton, List.filter_singleton,
    Bool.cond_eq_ite]

theorem programLines_of_comment_line (h : '\n' ∉ s) : programLines ('#' :: s) = [] := by
  have one : '\n' ∉ '#' :: s := List.not_mem_cons_of_ne_of_not_mem (by decide) h
  rw [programLines_line one, isStatement_trim_comment, if_neg Bool.false_ne_true]

/-- What a program line is: one line, no blanks at its ends, and no comment. -/
structure IsProgramLine (line : Text) : Prop where
  feed : '\n' ∉ line
  first : ∀ c ∈ line.head?, isBlank c = false
  last : ∀ c ∈ line.getLast?, isBlank c = false
  statement : isStatement line = true

theorem isProgramLine_of_mem (h : line ∈ programLines s) : IsProgramLine line := by
  rw [programLines_eq, List.mem_filter] at h
  obtain ⟨trimmed, statement⟩ := h
  obtain ⟨piece, member, rfl⟩ := List.mem_map.1 trimmed
  refine ⟨fun feed => ?_, Text.head?_trim piece, Text.getLast?_trim piece, statement⟩
  exact Text.notMem_of_mem_splitChar member ((Text.trim_infix piece).subset feed)

theorem IsProgramLine.programLines (h : IsProgramLine line) : programLines line = [line] :=
  programLines_of_line h.feed (Text.trim_eq_self h.first h.last) h.statement

theorem programLines_join {lines : List Text} (h : ∀ line ∈ lines, IsProgramLine line) :
    programLines (['\n'].intercalate lines) = lines := by
  rw [programLines_intercalate fun _ => rfl]
  induction lines with
  | nil => rfl
  | cons line lines ih =>
    obtain ⟨first, later⟩ := List.forall_mem_cons.1 h
    rw [List.flatMap_cons, first.programLines, ih later, List.singleton_append]

/-! ### Ends of lines -/

/-- A line starts behind the text. -/
def EndsBeforeLine (s : Text) : Prop := s = [] ∨ ∃ t, s = t ++ ['\n']

/-- A line ends before the text. -/
def StartsBehindLine (s : Text) : Prop := s = [] ∨ ∃ t, s = '\n' :: t

theorem EndsBeforeLine.programLines_append (h : EndsBeforeLine a) (s : Text) :
    programLines (a ++ s) = programLines a ++ programLines s := by
  rcases h with rfl | ⟨t, rfl⟩
  · rfl
  · rw [List.append_assoc, List.singleton_append, Program.programLines_append,
      Program.programLines_append]
    simp [Program.programLines, Text.lines, Text.splitChar, Text.linesOfPieces]

theorem StartsBehindLine.append_programLines (h : StartsBehindLine b) (s : Text) :
    programLines (s ++ b) = programLines s ++ programLines b := by
  rcases h with rfl | ⟨t, rfl⟩
  · rw [List.append_nil]
    exact (List.append_nil _).symm
  · rw [programLines_append, programLines_lineFeed]

theorem programLines_blanks_append (blank : ∀ c ∈ blanks, isBlank c) (s : Text) :
    programLines (blanks ++ s) = programLines s := by
  induction blanks with
  | nil => rfl
  | cons c blanks ih =>
    obtain ⟨first, later⟩ := List.forall_mem_cons.1 blank
    by_cases feed : c = '\n'
    · rw [feed, List.cons_append, programLines_lineFeed, ih later]
    · rw [List.cons_append, programLines_cons_blank first feed, ih later]

theorem programLines_concat_blank {c : Char} (blank : isBlank c) (s : Text) :
    programLines (s ++ [c]) = programLines s := by
  induction s using Text.line_induction with
  | last line one =>
    by_cases feed : c = '\n'
    · rw [feed, programLines_append]
      exact List.append_nil _
    · have one' : '\n' ∉ line ++ [c] := by simp [one, Ne.symm feed]
      rw [programLines_line one', programLines_line one, Text.trim_concat_blank line blank]
  | more line rest one ih =>
    rw [List.append_assoc, List.cons_append, programLines_append, ih, programLines_append]

theorem programLines_append_blanks (blank : ∀ c ∈ blanks, isBlank c) (s : Text) :
    programLines (s ++ blanks) = programLines s := by
  induction blanks generalizing s with
  | nil => rw [List.append_nil]
  | cons c blanks ih =>
    obtain ⟨first, later⟩ := List.forall_mem_cons.1 blank
    rw [List.append_cons, ih later, programLines_concat_blank first]

/-! ### Changes of layout -/

/-- One text becomes the other by changes of layout. -/
inductive Relaid : Text → Text → Prop
  | refl (s : Text) : Relaid s s
  | symm {s t : Text} : Relaid s t → Relaid t s
  | trans {s t u : Text} : Relaid s t → Relaid t u → Relaid s u
  /-- Blanks before a line, which may be whole lines. -/
  | before {a blanks b : Text} : EndsBeforeLine a → (∀ c ∈ blanks, isBlank c) →
    Relaid (a ++ blanks ++ b) (a ++ b)
  /-- Blanks behind a line, such as a carriage return. -/
  | behind {a blanks b : Text} : StartsBehindLine b → (∀ c ∈ blanks, isBlank c) →
    Relaid (a ++ blanks ++ b) (a ++ b)
  /-- A comment that is a line of its own. -/
  | comment {a s b : Text} : EndsBeforeLine a → StartsBehindLine b → '\n' ∉ s →
    Relaid (a ++ '#' :: s ++ b) (a ++ b)

namespace Relaid

theorem programLines_eq (h : Relaid s t) : programLines s = programLines t := by
  induction h with
  | refl s => rfl
  | symm _ ih => exact ih.symm
  | trans _ _ ih ih' => exact ih.trans ih'
  | before start blank =>
    rw [List.append_assoc, start.programLines_append, programLines_blanks_append blank,
      start.programLines_append]
  | behind stop blank =>
    rw [stop.append_programLines, programLines_append_blanks blank, stop.append_programLines]
  | comment start stop feed =>
    rw [List.append_assoc, start.programLines_append, stop.append_programLines,
      programLines_of_comment_line feed, List.nil_append, start.programLines_append]

/-- The text before a line does not matter. -/
theorem append_left (h : Relaid s t) (start : EndsBeforeLine a) : Relaid (a ++ s) (a ++ t) := by
  have starts {a' : Text} (h : EndsBeforeLine a') : EndsBeforeLine (a ++ a') := by
    rcases h with rfl | ⟨u, rfl⟩
    · rwa [List.append_nil]
    · exact .inr ⟨a ++ u, (List.append_assoc ..).symm⟩
  induction h with
  | refl s => exact .refl _
  | symm _ ih => exact .symm ih
  | trans _ _ ih ih' => exact .trans ih ih'
  | before start' blank =>
    simp only [← List.append_assoc]
    exact .before (starts start') blank
  | behind stop blank =>
    simp only [← List.append_assoc]
    exact .behind stop blank
  | comment start' stop feed =>
    simp only [← List.append_assoc]
    exact .comment (starts start') stop feed

theorem trim_line (start : EndsBeforeLine a) (stop : StartsBehindLine b) :
    Relaid (a ++ line ++ b) (a ++ Text.trim line ++ b) := by
  obtain ⟨left, right, whole, blank, blank'⟩ := Text.exists_trim line
  have first : Relaid (a ++ line ++ b) (a ++ (Text.trim line ++ right ++ b)) := by
    have parts : a ++ line ++ b = a ++ left ++ (Text.trim line ++ right ++ b) := by
      conv_lhs => rw [whole]
      simp only [List.append_assoc]
    rw [parts]
    exact .before start blank
  have second : Relaid (a ++ (Text.trim line ++ right ++ b)) (a ++ Text.trim line ++ b) := by
    simp only [← List.append_assoc]
    exact .behind stop blank'
  exact first.trans second

/-- A line that is no program line can be left out with its line feed. -/
theorem drop_line (noStatement : isStatement (Text.trim line) = false)
    (feed : '\n' ∉ line) (stop : StartsBehindLine b) : Relaid (line ++ b) b := by
  have trimmed : Relaid (line ++ b) (Text.trim line ++ b) := trim_line (.inl rfl) stop
  refine trimmed.trans ?_
  have inside : '\n' ∉ Text.trim line := fun found => feed ((Text.trim_infix line).subset found)
  generalize Text.trim line = rest at noStatement inside
  cases rest with
  | nil => exact .refl b
  | cons c rest =>
    obtain rfl : c = '#' := by simpa [isStatement] using noStatement
    exact .comment (a := []) (.inl rfl) stop (List.not_mem_of_not_mem_cons inside)

/-- Changes of layout lead from every text to its normal form. -/
theorem normalForm (s : Text) : Relaid s (['\n'].intercalate (programLines s)) := by
  induction s using Text.line_induction with
  | last line one =>
    rw [programLines_line one]
    split
    case isTrue =>
      have trimmed : Relaid ([] ++ line ++ []) ([] ++ Text.trim line ++ []) :=
        trim_line (.inl rfl) (.inl rfl)
      simpa using trimmed
    case isFalse noStatement =>
      simpa using drop_line (eq_false_of_ne_true noStatement) one (b := []) (.inl rfl)
  | more line rest one ih =>
    have stop (s : Text) : StartsBehindLine ('\n' :: s) := .inr ⟨s, rfl⟩
    have later : Relaid (line ++ '\n' :: rest)
        (line ++ '\n' :: ['\n'].intercalate (programLines rest)) := by
      have kept := ih.append_left (a := line ++ ['\n']) (.inr ⟨line, rfl⟩)
      rwa [← List.append_cons, ← List.append_cons] at kept
    refine later.trans ?_
    rw [programLines_append, programLines_line one]
    split
    case isTrue =>
      refine (trim_line (a := []) (.inl rfl) (stop _)).trans ?_
      rw [List.nil_append, List.singleton_append]
      cases programLines rest with
      | nil =>
        have feed : ∀ c ∈ ['\n'], isBlank c = true := List.forall_mem_singleton.2 rfl
        simpa using behind (a := Text.trim line) (b := []) (.inl rfl) feed
      | cons next lines =>
        rw [List.intercalate_cons_cons, List.append_assoc]
        exact .refl _
    case isFalse noStatement =>
      refine (drop_line (eq_false_of_ne_true noStatement) one (stop _)).trans ?_
      rw [List.nil_append]
      have feed : ∀ c ∈ ['\n'], isBlank c = true := List.forall_mem_singleton.2 rfl
      exact before (a := []) (.inl rfl) feed

end Relaid

/-- Texts have the same program lines exactly if one becomes the other by changes of layout. -/
theorem programLines_eq_iff_relaid : programLines s = programLines t ↔ Relaid s t := by
  refine ⟨fun same => ?_, Relaid.programLines_eq⟩
  have normal := Relaid.normalForm s
  rw [same] at normal
  exact normal.trans (Relaid.normalForm t).symm

/-- It makes no difference whether lines end with a carriage return and a line feed or with a line
feed alone. -/
theorem relaid_replaceAll_lineFeed (s : Text) :
    Relaid (Text.replaceAll ['\n'] ['\r', '\n'] s) s := by
  induction s using Text.line_induction with
  | last line one =>
    rw [Text.replaceAll_of_splitOnce_none _ (Text.splitOnce_of_notMem one)]
    exact .refl line
  | more line rest one ih =>
    rw [Text.replaceAll_of_splitOnce (List.cons_ne_nil _ _) _ (Text.splitOnce_singleton one rest)]
    have carriage : Relaid
        (line ++ ['\r'] ++ '\n' :: Text.replaceAll ['\n'] ['\r', '\n'] rest)
        (line ++ '\n' :: Text.replaceAll ['\n'] ['\r', '\n'] rest) :=
      .behind (.inr ⟨_, rfl⟩) (List.forall_mem_singleton.2 rfl)
    have later : Relaid (line ++ '\n' :: Text.replaceAll ['\n'] ['\r', '\n'] rest)
        (line ++ '\n' :: rest) := by
      have kept := ih.append_left (a := line ++ ['\n']) (.inr ⟨line, rfl⟩)
      rwa [← List.append_cons, ← List.append_cons] at kept
    have both := carriage.trans later
    rw [List.append_assoc] at both
    simpa using both

/-! ### The normal form -/

/-- The program lines of joined texts are those of the texts, one after the other.  Joined by line
feeds, the program lines of a text are its program lines again; each of them is one line that is not
empty, has no blank at either end and is no comment.  So a run of a text is the run of this normal
form, and layout makes no difference to it: texts have one normal form exactly if one becomes the
other by changes of layout, other line ends among them. -/
theorem programLines_normalForm :
    (∀ s t : Text, programLines (s ++ '\n' :: t) = programLines s ++ programLines t) ∧
      (∀ s : Text, programLines (['\n'].intercalate (programLines s)) = programLines s) ∧
      (∀ s : Text, ∀ line ∈ programLines s, line ≠ [] ∧ (∀ c ∈ line.head?, isBlank c = false) ∧
        (∀ c ∈ line.getLast?, isBlank c = false) ∧ line.head? ≠ some '#' ∧ '\n' ∉ line) ∧
      (∀ (config : Config) (s : Text),
        execute config (['\n'].intercalate (programLines s)) = execute config s) ∧
      (∀ s t : Text, programLines s = programLines t ↔ Relaid s t) ∧
      (∀ (config : Config) (s t : Text), Relaid s t → execute config s = execute config t) ∧
      ∀ (config : Config) (s : Text),
        execute config (Text.replaceAll ['\n'] ['\r', '\n'] s) = execute config s := by
  have again (s : Text) : programLines (['\n'].intercalate (programLines s)) = programLines s :=
    programLines_join fun line => isProgramLine_of_mem
  refine ⟨programLines_append, again, ?_, fun config s => execute_congr (again s) config,
    fun s t => programLines_eq_iff_relaid,
    fun config s t h => execute_congr h.programLines_eq config, fun config s =>
      execute_congr (relaid_replaceAll_lineFeed s).programLines_eq config⟩
  intro s line member
  have shape := isProgramLine_of_mem member
  have statement := shape.statement
  refine ⟨?_, shape.first, shape.last, ?_, shape.feed⟩
  · rintro rfl
    cases statement
  · intro comment
    obtain ⟨rest, rfl⟩ := List.head?_eq_some_iff.1 comment
    cases statement

/-- A program with a comment, indentation and other line ends. -/
def indented : Text := "\t# start\r\n\tx = 1 \r\n\r\n\u3000 print(x)".toList

theorem programLines_normalForm_indented :
    "print(x)".toList ∈ programLines indented ∧
      (∀ c ∈ "print(x)".toList.head?, isBlank c = false) ∧
      (∀ c ∈ "print(x)".toList.getLast?, isBlank c = false) ∧
      Relaid indented "x = 1\nprint(x)".toList ∧
      execute {} indented = execute {} "x = 1\nprint(x)".toList ∧
      execute {} indented = ⟨[['1']], none⟩ := by
  obtain ⟨-, -, lines, -, relaid, runs, -⟩ := programLines_normalForm
  have member : "print(x)".toList ∈ programLines indented := by decide +kernel
  have same : programLines indented = programLines "x = 1\nprint(x)".toList := by decide +kernel
  have changed := (relaid _ _).1 same
  obtain ⟨-, first, last, -, -⟩ := lines indented _ member
  exact ⟨member, first, last, changed, runs {} _ _ changed, by decide +kernel⟩

end Program
end BlockCanvas
