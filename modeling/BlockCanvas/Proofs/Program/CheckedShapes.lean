import BlockCanvas.Program.Expression
import BlockCanvas.Proofs.Except
import BlockCanvas.Proofs.Program.Shapes
import BlockCanvas.Proofs.Text.Slices

/-!
# Shapes with checked slices

The recognizers of statement shapes once more, as arithmetic on places that are numbers of bytes.
Every slice is checked: one whose bounds are out of range, in the wrong order or inside a character
is a `Crash` (`slice_eq_crash_iff`).  The recognizers do not crash on any text, and they recognize
what the shapes say: `prompt?_eq`, `range?_eq`, `function?_eq`, `append?_eq`, and `unquote?_eq` for
quoted texts.
-/

namespace BlockCanvas

open Utf8 (size size_append size_eq_zero_iff)

/-- What ends a run without a report. -/
inductive Crash where
  /-- A slice that cannot be taken. -/
  | slice (s : Text) (first last : Nat)
  /-- No rule took the line. -/
  | noRule (line : Text)
  /-- The list of an append is unbound when the item is added. -/
  | unbound (name : Text)

namespace Checked

/-! ### Slices -/

def slice (s : Text) (first last : Nat) : Except Crash Text :=
  match Text.slice? s first last with
  | some t => .ok t
  | none => .error (.slice s first last)

def sliceFrom (s : Text) (first : Nat) : Except Crash Text := slice s first (size s)

def sliceTo (s : Text) (last : Nat) : Except Crash Text := slice s 0 last

def splitAt (s : Text) (place : Nat) : Except Crash (Text × Text) := do
  let front ← sliceTo s place
  let back ← sliceFrom s place
  return (front, back)

theorem slice_eq_crash_iff {s : Text} {first last : Nat} :
    slice s first last = .error (.slice s first last) ↔ ¬ Text.Bounds s first last := by
  rw [← Text.isSome_slice?_iff, slice]
  cases Text.slice? s first last <;> simp

theorem slice_append (a t b : Text) : slice (a ++ t ++ b) (size a) (size (a ++ t)) = .ok t := by
  rw [slice, Text.slice?_append]

theorem sliceFrom_append (a b : Text) : sliceFrom (a ++ b) (size a) = .ok b := by
  have whole := slice_append a b []
  rwa [List.append_nil] at whole

theorem sliceTo_append (a b : Text) : sliceTo (a ++ b) (size a) = .ok a := slice_append [] a b

theorem splitAt_append (a b : Text) : splitAt (a ++ b) (size a) = .ok (a, b) := by
  rw [splitAt, sliceTo_append, ok_bind, sliceFrom_append, ok_bind]
  rfl

/-- What follows a place of `sep` is the slice behind it. -/
theorem sliceFrom_add (a sep b : Text) :
    sliceFrom (a ++ sep ++ b) (size a + size sep) = .ok b := by
  rw [← size_append]
  exact sliceFrom_append (a ++ sep) b

/-- A text between two ends is the slice between their sizes. -/
theorem slice_between (first t last : Text) :
    slice (first ++ t ++ last) (size first) (size (first ++ t ++ last) - size last) = .ok t := by
  have stop : size (first ++ t ++ last) - size last = size (first ++ t) := by
    rw [size_append (first ++ t), Nat.add_sub_cancel]
  rw [stop, slice_append]

/-! ### The parts of shapes -/

/-- The characters at the head of a text that satisfy `p`, and the rest. -/
def takeFront (p : Char → Bool) (s : Text) : Except Crash (Text × Text) :=
  splitAt s ((Text.placeWhere? (fun c => !p c) s).getD (size s))

theorem takeFront_eq (p : Char → Bool) (s : Text) :
    takeFront p s = .ok (s.takeWhile p, s.dropWhile p) := by
  have cut := splitAt_append (s.takeWhile p) (s.dropWhile p)
  rwa [List.takeWhile_append_dropWhile, ← Text.placeWhere?_not_getD] at cut

/-- The word at the head of a text, if there is one, and the rest. -/
def word? (s : Text) : Except Crash (Option (Text × Text)) := do
  let stop := (Text.placeWhere? (fun c => !Text.isWordChar c) s).getD (size s)
  if stop = 0 then return none
  let parts ← splitAt s stop
  return some parts

theorem word?_eq (s : Text) : word? s = .ok (Shape.word? s) := by
  have taken : splitAt s (size (s.takeWhile Text.isWordChar)) = .ok (Text.takeWord s) := by
    rw [← Text.placeWhere?_not_getD]
    exact takeFront_eq Text.isWordChar s
  rw [word?, Shape.word?, Text.placeWhere?_not_getD]
  simp only [size_eq_zero_iff, taken, ok_bind]
  rw [Text.takeWord]
  split <;> rfl

/-- The first result at a place of `sep`, from left to right. -/
def atPlaces {α : Type} (sep line : Text) (here : Nat → Except Crash (Option α)) :
    Except Crash (Option α) :=
  (Text.places sep line).findSomeM? here

theorem atPlaces_eq {α : Type} {sep line : Text} {here : Nat → Except Crash (Option α)}
    {shape : Text × Text → Option α}
    (h : ∀ before after, line = before ++ sep ++ after →
      here (size before) = .ok (shape (before, after))) :
    atPlaces sep line here = .ok ((Text.occurrences sep line).findSome? shape) := by
  have found : ∀ p ∈ Text.occurrences sep line, here (size p.1) = .ok (shape p) :=
    fun p member => h p.1 p.2 (Text.occurrences_append member)
  rw [atPlaces, Text.places]
  generalize Text.occurrences sep line = all at found
  induction all with
  | nil => rfl
  | cons p all ih =>
    obtain ⟨first, later⟩ := List.forall_mem_cons.1 found
    rw [List.map_cons, List.findSomeM?, first, ok_bind, List.findSome?_cons]
    cases shape p with
    | none => exact ih later
    | some x => rfl

/-! ### Prompts -/

/-- The prompt after the keyword `input("` at a place. -/
def promptAt (line : Text) (place : Nat) : Except Crash (Option Text) := do
  let after ← sliceFrom line (place + size "input(\"".toList)
  match Text.firstPlace? ['"'] after with
  | none => return none
  | some close =>
    let rest ← sliceFrom after close
    if "\")".toList.isPrefixOf rest then
      let prompt ← sliceTo after close
      return some prompt
    else return none

def prompt? (line : Text) : Except Crash (Option Text) :=
  atPlaces "input(\"".toList line (promptAt line)

theorem promptAt_eq (before after : Text) :
    promptAt (before ++ "input(\"".toList ++ after) (size before) =
      .ok (Shape.promptHere? after) := by
  rw [promptAt, sliceFrom_add, ok_bind, Shape.promptHere?, Text.firstPlace?]
  cases cut : Text.splitOnce ['"'] after with
  | none => rfl
  | some sides =>
    obtain ⟨prompt, rest⟩ := sides
    have whole := (Text.splitOnce_singleton_eq_some_iff.1 cut).2
    subst whole
    simp only [Option.map_some, sliceFrom_append, sliceTo_append, ok_bind]
    cases rest with
    | nil => rfl
    | cons c rest =>
      by_cases close : c = ')'
      · subst close
        rfl
      · simp [close, Ne.symm close, pure, Except.pure]

theorem prompt?_eq (line : Text) : prompt? line = .ok (Shape.prompt? line) := by
  apply atPlaces_eq
  rintro before after rfl
  exact promptAt_eq before after

/-! ### Loop headers -/

/-- The range in the text after ` in range(`. -/
def bounds? (var after : Text) : Except Crash (Option Shape.Range) := do
  let (first, rest) ← takeFront Char.isDigit after
  if first = [] then return none
  let (second, rest) ← takeFront Char.isDigit (Text.trimStart (Shape.dropComma rest))
  match "):".toList.isPrefixOf? rest with
  | none => return none
  | some _ =>
    match Shape.bound? first with
    | none => return none
    | some a =>
      if second = [] then return some ⟨var, 0, a⟩
      return (Shape.bound? second).map fun b => ⟨var, a, b⟩

/-- The range after the keyword `for ` at a place. -/
def rangeAt (line : Text) (place : Nat) : Except Crash (Option Shape.Range) := do
  let after ← sliceFrom line (place + size "for ".toList)
  match ← word? after with
  | none => return none
  | some (var, rest) =>
    match " in range(".toList.isPrefixOf? rest with
    | none => return none
    | some rest => bounds? var rest

def range? (line : Text) : Except Crash (Option Shape.Range) :=
  atPlaces "for ".toList line (rangeAt line)

theorem bounds?_eq (var after : Text) : bounds? var after = .ok (Shape.boundsHere? var after) := by
  rw [bounds?, Shape.boundsHere?, takeFront_eq, ok_bind]
  dsimp only [Text.takeDigits]
  by_cases nil : after.takeWhile Char.isDigit = []
  · rw [if_pos nil, if_pos nil]
    rfl
  · rw [if_neg nil, if_neg nil, takeFront_eq, ok_bind]
    dsimp only
    cases "):".toList.isPrefixOf? _ with
    | none => rfl
    | some _ =>
      cases Shape.bound? (after.takeWhile Char.isDigit) with
      | none => rfl
      | some a =>
        dsimp only
        split <;> rfl

theorem rangeAt_eq (before after : Text) :
    rangeAt (before ++ "for ".toList ++ after) (size before) = .ok (Shape.rangeHere? after) := by
  rw [rangeAt, sliceFrom_add, ok_bind, word?_eq, ok_bind, Shape.rangeHere?]
  cases Shape.word? after with
  | none => rfl
  | some parts =>
    dsimp only
    cases " in range(".toList.isPrefixOf? parts.2 with
    | none => rfl
    | some rest => exact bounds?_eq parts.1 rest

theorem range?_eq (line : Text) : range? line = .ok (Shape.range? line) := by
  apply atPlaces_eq
  rintro before after rfl
  exact rangeAt_eq before after

/-! ### Function headers -/

/-- The name and the parameters after the keyword `def ` at a place. -/
def functionAt (line : Text) (place : Nat) : Except Crash (Option (Text × Text)) := do
  let after ← sliceFrom line (place + size "def ".toList)
  match ← word? after with
  | none => return none
  | some (name, rest) =>
    match ['('].isPrefixOf? rest with
    | none => return none
    | some rest =>
      match Text.lastPlace? "):".toList rest with
      | none => return none
      | some close =>
        let params ← sliceTo rest close
        return some (name, params)

def function? (line : Text) : Except Crash (Option (Text × Text)) :=
  atPlaces "def ".toList line (functionAt line)

theorem functionAt_eq (before after : Text) :
    functionAt (before ++ "def ".toList ++ after) (size before) =
      .ok (Shape.functionHere? after) := by
  rw [functionAt, sliceFrom_add, ok_bind, word?_eq, ok_bind, Shape.functionHere?]
  cases Shape.word? after with
  | none => rfl
  | some parts =>
    obtain ⟨name, rest⟩ := parts
    cases rest with
    | nil => rfl
    | cons c rest =>
      by_cases opened : c = '('
      · subst opened
        show (match Text.lastPlace? "):".toList rest with | none => _ | some close => _) =
          Except.ok ((Text.splitLast "):".toList rest).map _)
        rw [Text.lastPlace?]
        cases cut : Text.splitLast "):".toList rest with
        | none => rfl
        | some sides =>
          obtain ⟨params, rest'⟩ := sides
          have whole := Text.splitLast_append cut
          rw [List.append_assoc] at whole
          subst whole
          simp only [Option.map_some, sliceTo_append, ok_bind]
          rfl
      · have other : ['('].isPrefixOf? (c :: rest) = none := by
          simp [List.isPrefixOf?, Ne.symm opened]
        simp [other, opened, pure, Except.pure]

theorem function?_eq (line : Text) : function? line = .ok (Shape.function? line) := by
  apply atPlaces_eq
  rintro before after rfl
  exact functionAt_eq before after

/-! ### Appends -/

/-- The list and the item around `.append(` at a place. -/
def appendAt (line : Text) (place : Nat) : Except Crash (Option (Text × Text)) := do
  let head ← sliceTo line place
  match Text.startOfEnd? Text.isWordChar head with
  | none => return none
  | some start =>
    let after ← sliceFrom line (place + size ".append(".toList)
    match Text.lastPlace? [')'] after with
    | none => return none
    | some close =>
      if close = 0 then return none
      let name ← sliceFrom head start
      let item ← sliceTo after close
      return some (name, item)

def append? (line : Text) : Except Crash (Option (Text × Text)) :=
  atPlaces ".append(".toList line (appendAt line)

theorem appendAt_eq (before after : Text) :
    appendAt (before ++ ".append(".toList ++ after) (size before) =
      .ok (Shape.appendHere? before after) := by
  have head : sliceTo (before ++ ".append(".toList ++ after) (size before) = .ok before := by
    rw [List.append_assoc, sliceTo_append]
  rw [appendAt, head, ok_bind, Shape.appendHere?]
  simp only [sliceFrom_add, ok_bind]
  obtain ⟨front, whole, chars, stop⟩ :=
    Shape.wordAtEnd_eq_iff.1 (Eq.refl (Shape.wordAtEnd before))
  generalize Shape.wordAtEnd before = name at whole chars
  subst whole
  rw [Text.startOfEnd?_append chars stop]
  by_cases nil : name = []
  · rw [if_pos nil, if_pos nil]
    rfl
  · rw [if_neg nil, if_neg nil, Text.lastPlace?]
    cases cut : Text.splitLast [')'] after with
    | none => rfl
    | some sides =>
      obtain ⟨item, rest⟩ := sides
      have whole := Text.splitLast_append cut
      rw [List.append_assoc] at whole
      subst whole
      simp only [Option.map_some, size_eq_zero_iff, sliceFrom_append, sliceTo_append, ok_bind]
      split <;> rfl

theorem append?_eq (line : Text) : append? line = .ok (Shape.append? line) := by
  apply atPlaces_eq
  rintro before after rfl
  exact appendAt_eq before after

/-! ### Quoted texts -/

/-- The text between two equal quotes.  A single quote is both of them, and nothing is between. -/
def unquoteWith? (quote : Char) (e : Text) : Except Crash (Option Text) := do
  if Rule.startsWith [quote] e && Rule.endsWith [quote] e then
    if 2 ≤ size e then
      let s ← slice e 1 (size e - 1)
      return some s
    return some []
  return none

def unquote? (e : Text) : Except Crash (Option Text) :=
  ['"', '\''].findSomeM? fun quote => unquoteWith? quote e

/-- The ends of a text make up the whole of it, or something stands between them. -/
theorem eq_or_exists_between {first s : Text} {c : Char}
    (h : (Rule.startsWith first s && Rule.endsWith [c] s) = true) :
    s = first ∨ ∃ t, s = first ++ t ++ [c] := by
  rw [Bool.and_eq_true, Rule.startsWith, Rule.endsWith, List.isPrefixOf_iff_prefix,
    List.isSuffixOf_iff_suffix] at h
  obtain ⟨⟨rest, rfl⟩, front, ends⟩ := h
  rcases List.eq_nil_or_concat rest with rfl | ⟨t, d, rfl⟩
  · exact .inl (List.append_nil first)
  · right
    rw [List.concat_eq_append, ← List.append_assoc] at ends ⊢
    rw [(List.append_inj' ends rfl).2]
    exact ⟨t, rfl⟩

theorem unquoteWith?_eq {quote : Char} (single : size [quote] = 1) (e : Text) :
    unquoteWith? quote e = .ok (Expression.unquoteWith? quote e) := by
  rw [unquoteWith?, Expression.unquoteWith?]
  split
  case isTrue ends =>
    rcases eq_or_exists_between ends with rfl | ⟨t, rfl⟩
    · have short : ¬ 2 ≤ size [quote] := by omega
      rw [if_neg short, if_pos rfl]
      rfl
    · have inner := slice_between [quote] t [quote]
      have long : 2 ≤ size ([quote] ++ t ++ [quote]) := by
        rw [size_append, size_append]
        omega
      have more : [quote] ++ t ++ [quote] ≠ [quote] := by simp
      rw [single] at inner
      rw [if_pos long, inner, ok_bind, if_neg more, Text.between?_append]
      rfl
  case isFalse ends =>
    have other : e ≠ [quote] := by
      rintro rfl
      simp [Rule.startsWith, Rule.endsWith] at ends
    have absent : Text.between? [quote] [quote] e = none := by
      rw [Option.eq_none_iff_forall_ne_some]
      intro t between
      rw [Text.eq_of_between? between] at ends
      exact ends (Statement.startsWith_and_endsWith [quote] t [quote])
    rw [if_neg other, absent]
    rfl

theorem unquote?_eq (e : Text) : unquote? e = .ok (Expression.unquote? e) := by
  have double := unquoteWith?_eq (by decide : size ['"'] = 1) e
  have single := unquoteWith?_eq (by decide : size ['\''] = 1) e
  simp only [unquote?, Expression.unquote?, List.findSomeM?, double, single, ok_bind]
  cases Expression.unquoteWith? '"' e with
  | some s => rfl
  | none => cases Expression.unquoteWith? '\'' e <;> rfl

end Checked
end BlockCanvas
