import BlockCanvas.Program.Run

/-!
# Lines of joined texts

`programLines_append`: the program lines of two texts with a line feed between them are those of
the first and then those of the second.  Line ends leave no trace, since a carriage return at the
end of a line is a blank and a line that is empty is dropped: `programLines_eq` describes the
program lines by the pieces between the line feeds alone.
-/

namespace BlockCanvas
namespace Text

theorem splitChar_ne_nil (sep : Char) (s : Text) : splitChar sep s ≠ [] := by
  cases s with
  | nil => simp [splitChar]
  | cons c s =>
    simp only [splitChar]
    split
    · simp
    · split <;> simp

theorem splitChar_append (sep : Char) (s t : Text) :
    splitChar sep (s ++ sep :: t) = splitChar sep s ++ splitChar sep t := by
  induction s with
  | nil => simp [splitChar]
  | cons c s ih =>
    simp only [List.cons_append, splitChar, ih]
    split
    · rfl
    · rcases List.exists_cons_of_ne_nil (splitChar_ne_nil sep s) with ⟨piece, rest, h⟩
      simp only [h, List.cons_append]

theorem splitChar_of_notMem {sep : Char} {s : Text} (h : sep ∉ s) : splitChar sep s = [s] := by
  induction s with
  | nil => rfl
  | cons c s ih =>
    rw [splitChar, if_neg (Ne.symm (List.ne_of_not_mem_cons h)),
      ih (List.not_mem_of_not_mem_cons h)]

/-- Cut at the separators, joined texts without any come back; what stands after each separator
stands before the next text. -/
theorem splitChar_intercalate {sep : Char} {gap : Text} (hg : sep ∉ gap) {s : Text}
    {rest : List Text} (hs : sep ∉ s) (hr : ∀ t ∈ rest, sep ∉ t) :
    splitChar sep ((sep :: gap).intercalate (s :: rest)) = s :: rest.map (gap ++ ·) := by
  induction rest generalizing s with
  | nil => rw [List.intercalate_singleton, splitChar_of_notMem hs, List.map_nil]
  | cons t rest ih =>
    obtain ⟨ht, hr⟩ := List.forall_mem_cons.1 hr
    -- the gap counts as the start of the next text
    have next : gap ++ (sep :: gap).intercalate (t :: rest) =
        (sep :: gap).intercalate ((gap ++ t) :: rest) := by
      cases rest with
      | nil => simp [List.intercalate_singleton]
      | cons u rest => simp [List.intercalate_cons_cons]
    have piece : sep ∉ gap ++ t := by simp [hg, ht]
    have whole : (sep :: gap).intercalate (s :: t :: rest) =
        s ++ sep :: (sep :: gap).intercalate ((gap ++ t) :: rest) := by
      rw [List.intercalate_cons_cons, ← next]
      simp
    rw [whole, splitChar_append, splitChar_of_notMem hs, ih piece hr]
    rfl

theorem notMem_intercalate {c : Char} {sep : Text} {parts : List Text} (hs : c ∉ sep)
    (hp : ∀ part ∈ parts, c ∉ part) : c ∉ sep.intercalate parts := by
  induction parts with
  | nil => exact List.not_mem_nil
  | cons part rest ih =>
    obtain ⟨first, later⟩ := List.forall_mem_cons.1 hp
    cases rest with
    | nil => rwa [List.intercalate_singleton]
    | cons next rest =>
      rw [List.intercalate_cons_cons, List.mem_append, List.mem_append, not_or, not_or]
      exact ⟨⟨first, hs⟩, ih later⟩

/-! ### Trimming -/

theorem trimStart_eq_self {s : Text} (h : ∀ c ∈ s.head?, isBlank c = false) : trimStart s = s := by
  cases s with
  | nil => rfl
  | cons c s => rw [trimStart, List.dropWhile_cons_of_neg (by simp [h c rfl])]

theorem trimEnd_eq_self {s : Text} (h : ∀ c ∈ s.getLast?, isBlank c = false) : trimEnd s = s := by
  show (trimStart s.reverse).reverse = s
  rw [trimStart_eq_self, List.reverse_reverse]
  rwa [List.head?_reverse]

/-- A text that has no blank at its ends is trimmed. -/
theorem trim_eq_self {s : Text} (first : ∀ c ∈ s.head?, isBlank c = false)
    (last : ∀ c ∈ s.getLast?, isBlank c = false) : trim s = s := by
  rw [trim, trimStart_eq_self first, trimEnd_eq_self last]

theorem trim_cons_blank {c : Char} (hc : isBlank c = true) (s : Text) : trim (c :: s) = trim s := by
  rw [trim, trim, trimStart, List.dropWhile_cons_of_pos hc]
  rfl

theorem trim_concat_blank (s : Text) {c : Char} (hc : isBlank c = true) :
    trim (s ++ [c]) = trim s := by
  unfold trim trimStart trimEnd
  rw [List.dropWhile_append]
  split
  case isTrue h =>
    rw [List.isEmpty_iff.1 h]
    simp [hc]
  case isFalse =>
    rw [List.reverse_append, List.reverse_singleton, List.singleton_append,
      List.dropWhile_cons_of_pos hc]

theorem mem_trimStart {c : Char} {s : Text} (h : c ∈ s) (visible : isBlank c = false) :
    c ∈ trimStart s := by
  rw [← List.takeWhile_append_dropWhile (p := isBlank) (l := s)] at h
  rcases List.mem_append.1 h with blanks | rest
  · have blank := List.all_eq_true.1 List.all_takeWhile c blanks
    rw [visible] at blank
    cases blank
  · exact rest

/-- What is trimmed away is blank. -/
theorem mem_trim {c : Char} {s : Text} (h : c ∈ s) (visible : isBlank c = false) : c ∈ trim s :=
  List.mem_reverse.2 (mem_trimStart (List.mem_reverse.2 (mem_trimStart h visible)) visible)

theorem trim_chomp (line : Text) : trim (chomp line) = trim line := by
  unfold chomp
  split
  case h_1 rest h =>
    rw [← trim_concat_blank rest.reverse (c := '\r') (by decide), ← List.reverse_cons, ← h,
      List.reverse_reverse]
  case h_2 => rfl

theorem isBlank_of_isWordChar {c : Char} (h : isWordChar c) : isBlank c = false := by
  have range : 48 ≤ c.toNat ∧ c.toNat ≤ 122 := by
    change ((decide (65 ≤ c.val ∧ c.val ≤ 90) ||
      (decide (97 ≤ c.val) && decide (c.val ≤ 122))) ||
      (decide (48 ≤ c.val) && decide (c.val ≤ 57)) || c == '_') = true at h
    simp only [Bool.or_eq_true, Bool.and_eq_true, decide_eq_true_eq, beq_iff_eq,
      UInt32.le_iff_toNat_le] at h
    change (((65 ≤ c.toNat ∧ c.toNat ≤ 90) ∨ (97 ≤ c.toNat ∧ c.toNat ≤ 122)) ∨
      (48 ≤ c.toNat ∧ c.toNat ≤ 57)) ∨ c = '_' at h
    rcases h with h | rfl
    · omega
    · decide
  simp only [isBlank, Bool.or_eq_false_iff, Bool.and_eq_false_iff, decide_eq_false_iff_not,
    beq_eq_false_iff_ne]
  omega

end Text

namespace Program

theorem filter_trim_linesOfPieces : ∀ pieces : List Text,
    ((Text.linesOfPieces pieces).map Text.trim).filter isStatement =
      (pieces.map Text.trim).filter isStatement
  | [] => rfl
  | [piece] => by
    by_cases h : piece = []
    · subst h
      rfl
    · simp [Text.linesOfPieces, h]
  | piece :: next :: rest => by
    have ih := filter_trim_linesOfPieces (next :: rest)
    simp only [Text.linesOfPieces, List.map_cons, List.filter_cons, Text.trim_chomp] at ih ⊢
    rw [ih]

/-- The program lines of a text by the pieces between its line feeds. -/
theorem programLines_eq (source : Text) : programLines source =
    ((Text.splitChar '\n' source).map Text.trim).filter isStatement :=
  filter_trim_linesOfPieces _

/-- Blanks at the start of a text are no part of its program lines. -/
theorem programLines_cons_blank {c : Char} (blank : Text.isBlank c = true) (other : c ≠ '\n')
    (s : Text) : programLines (c :: s) = programLines s := by
  obtain ⟨piece, rest, pieces⟩ := List.exists_cons_of_ne_nil (Text.splitChar_ne_nil '\n' s)
  rw [programLines_eq, programLines_eq, Text.splitChar, if_neg other, pieces]
  dsimp only
  rw [List.map_cons, Text.trim_cons_blank blank, List.map_cons]

/-- A text of one line that is no comment and has no blanks around it is a program line. -/
theorem programLines_of_line {line : Text} (feed : '\n' ∉ line) (trimmed : Text.trim line = line)
    (statement : isStatement line = true) : programLines line = [line] := by
  rw [programLines_eq, Text.splitChar_of_notMem feed, List.map_singleton, trimmed,
    List.filter_cons_of_pos statement, List.filter_nil]

/-- A line feed between two texts keeps their program lines apart, and adds and drops none. -/
theorem programLines_append (s t : Text) :
    programLines (s ++ '\n' :: t) = programLines s ++ programLines t := by
  simp only [programLines_eq, Text.splitChar_append, List.map_append, List.filter_append]

/-- Texts with the same program lines are run alike. -/
theorem execute_congr {s t : Text} (h : programLines s = programLines t) (config : Config) :
    execute config s = execute config t := by
  rw [execute, execute, run, run, h]

end Program
end BlockCanvas
