import BlockCanvas.Proofs.Program.QuotedText
import BlockCanvas.Proofs.Text.Places

/-!
# What recognizers accept

A recognizer takes the leftmost place of its keyword around which its shape stands, and no other
condition is put on the line: `Recognizes`.  How far the parts of the shape reach is settled by
their ends.  A prompt ends at the first quote, parameters and items at the last place of what closes
them, and the name of a list starts behind the last character that is no part of a word.

Main statement: `recognizes_shapes`, prompts, function headers and appends.
-/

namespace BlockCanvas
namespace Shape

open Text (IsWord)

variable {α : Type}

/-- What `f` makes of a line.  There is a result if the shape stands around some place of the
keyword: `Fits` says so of the texts before and after the place and of the parts of the shape.  The
result is read at the leftmost such place, where `Reads` says how far its parts reach. -/
structure Recognizes (keyword : Text) (Fits Reads : Text → Text → α → Prop)
    (f : Text → Option α) : Prop where
  isSome_iff : ∀ line, (f line).isSome ↔
    ∃ before after x, line = before ++ keyword ++ after ∧ Fits before after x
  eq_some_iff : ∀ line x, f line = some x ↔
    ∃ before after, line = before ++ keyword ++ after ∧ Reads before after x ∧
      ∀ before' after' x', line = before' ++ keyword ++ after' → Fits before' after' x' →
        before.length ≤ before'.length

theorem recognizes_of_here {keyword : Text} {Fits Reads : Text → Text → α → Prop}
    (here : Text → Text → Option α)
    (fits : ∀ before after, (here before after).isSome ↔ ∃ x, Fits before after x)
    (reads : ∀ before after x, here before after = some x ↔ Reads before after x) :
    Recognizes keyword Fits Reads fun line =>
      (Text.occurrences keyword line).findSome? fun place => here place.1 place.2 where
  isSome_iff line := by
    simp only [Text.isSome_findSome?_occurrences_iff, fits, exists_and_left]
  eq_some_iff line x := by
    simp only [Text.findSome?_occurrences_eq_some_iff, fits, reads, forall_exists_index]
    refine exists_congr fun before => exists_congr fun after => and_congr_right fun _ =>
      and_congr_right fun _ => forall_congr' fun before' => forall_congr' fun after' => ?_
    exact ⟨fun h x' whole => h whole x', fun h whole x' => h x' whole⟩

/-- No place is left of the start of the line. -/
theorem Recognizes.eq_some_of_head {keyword after : Text} {Fits Reads : Text → Text → α → Prop}
    {f : Text → Option α} (h : Recognizes keyword Fits Reads f) {x : α} (reads : Reads [] after x) :
    f (keyword ++ after) = some x :=
  (h.eq_some_iff _ _).2 ⟨[], after, rfl, reads, fun _ _ _ _ _ => Nat.zero_le _⟩

/-! ### Words -/

theorem word?_eq_some_iff {s word rest : Text} :
    word? s = some (word, rest) ↔ IsWord word ∧ s = word ++ rest ∧
      ∀ c ∈ rest.head?, ¬ Text.isWordChar c := by
  have taken : Text.takeWord s = (word, rest) ↔ s = word ++ rest ∧
      (∀ c ∈ word, Text.isWordChar c) ∧ ∀ c ∈ rest.head?, ¬ Text.isWordChar c := Text.span_eq_iff
  rw [word?]
  constructor
  · intro h
    dsimp only at h
    split at h
    · cases h
    · next ne_nil =>
      obtain ⟨whole, chars, stop⟩ := taken.1 (Option.some.inj h)
      exact ⟨⟨by rwa [← (Prod.mk.inj (Option.some.inj h)).1], chars⟩, whole, stop⟩
  · rintro ⟨word, whole, stop⟩
    rw [taken.2 ⟨whole, word.chars, stop⟩]
    exact if_neg word.ne_nil

/-- The word at the end of a text starts behind the last character that is no part of a word. -/
theorem wordAtEnd_eq_iff {s word : Text} :
    wordAtEnd s = word ↔ ∃ front, s = front ++ word ∧ (∀ c ∈ word, Text.isWordChar c) ∧
      ∀ c ∈ front.getLast?, ¬ Text.isWordChar c := by
  constructor
  · rintro rfl
    obtain ⟨whole, chars, stop⟩ := (Text.span_eq_iff (p := Text.isWordChar) (s := s.reverse)).1 rfl
    refine ⟨(s.reverse.dropWhile Text.isWordChar).reverse, ?_, ?_, ?_⟩
    · rw [wordAtEnd, ← List.reverse_append, ← whole, List.reverse_reverse]
    · exact fun c hc => chars c (List.mem_reverse.1 hc)
    · rwa [List.getLast?_reverse]
  · rintro ⟨front, rfl, chars, stop⟩
    have taken := (Text.span_eq_iff (p := Text.isWordChar)
      (s := (front ++ word).reverse) (a := word.reverse) (b := front.reverse)).2
      ⟨List.reverse_append, fun c hc => chars c (List.mem_reverse.1 hc),
        by rwa [List.head?_reverse]⟩
    rw [wordAtEnd, (Prod.mk.inj taken).1, List.reverse_reverse]

/-! ### Prompts -/

/-- A text without quotes and then the end of the call. -/
def PromptFits (_before after prompt : Text) : Prop :=
  '"' ∉ prompt ∧ prompt ++ "\")".toList <+: after

theorem promptHere?_eq_some_iff (before : Text) {after prompt : Text} :
    promptHere? after = some prompt ↔ PromptFits before after prompt := by
  constructor
  · intro h
    rw [promptHere?] at h
    split at h
    · next cut =>
      cases h
      obtain ⟨quote, rfl⟩ := Text.splitOnce_singleton_eq_some_iff.1 cut
      exact ⟨quote, _, List.append_assoc ..⟩
    · cases h
  · rintro ⟨quote, rest, rfl⟩
    have parts : prompt ++ "\")".toList ++ rest = prompt ++ '"' :: ')' :: rest := by simp
    rw [parts, promptHere?, Text.splitOnce_singleton quote]
    rfl

theorem recognizes_prompt : Recognizes "input(\"".toList PromptFits PromptFits prompt? :=
  recognizes_of_here (fun _ after => promptHere? after)
    (fun before _ => by simp only [Option.isSome_iff_exists, promptHere?_eq_some_iff before])
    fun before _ _ => promptHere?_eq_some_iff before

/-! ### Function headers -/

/-- A word, and parameters between parentheses before a colon. -/
def FunctionFits (_before after : Text) (x : Text × Text) : Prop :=
  IsWord x.1 ∧ x.1 ++ "(".toList ++ x.2 ++ "):".toList <+: after

/-- The parameters reach up to the last closing parenthesis with a colon. -/
def FunctionReads (_before after : Text) (x : Text × Text) : Prop :=
  IsWord x.1 ∧ ∃ rest, after = x.1 ++ "(".toList ++ x.2 ++ "):".toList ++ rest ∧
    ¬ "):".toList <:+: rest

theorem functionHere?_eq_some_iff (before : Text) {after : Text} {x : Text × Text} :
    functionHere? after = some x ↔ FunctionReads before after x := by
  obtain ⟨name, params⟩ := x
  have last {rest rest' : Text} : Text.splitLast "):".toList rest = some (params, rest') ↔
      rest = params ++ "):".toList ++ rest' ∧ ¬ "):".toList <:+: rest' :=
    Text.splitLast_eq_some_iff (by decide)
  constructor
  · intro h
    rw [functionHere?] at h
    split at h
    · next rest word =>
      obtain ⟨⟨_, rest'⟩, cut, e⟩ := Option.map_eq_some_iff.1 h
      cases e
      obtain ⟨word, whole, -⟩ := word?_eq_some_iff.1 word
      obtain ⟨inner, absent⟩ := last.1 cut
      refine ⟨word, rest', ?_, absent⟩
      rw [whole, inner]
      simp
    · cases h
  · rintro ⟨word, rest, rfl, absent⟩
    have parts : name ++ "(".toList ++ params ++ "):".toList ++ rest =
        name ++ '(' :: (params ++ "):".toList ++ rest) := by simp
    have stop : ∀ c ∈ ('(' :: (params ++ "):".toList ++ rest)).head?, ¬ Text.isWordChar c := by
      rintro c ⟨⟩
      decide
    dsimp only
    rw [parts, functionHere?, word?_eq_some_iff.2 ⟨word, rfl, stop⟩]
    show (Text.splitLast "):".toList (params ++ "):".toList ++ rest)).map _ = _
    rw [last.2 ⟨rfl, absent⟩, Option.map_some]

/-- Where parameters end at some place of what closes them, they end at the last one too. -/
theorem functionHere?_isSome_iff (before : Text) {after : Text} :
    (functionHere? after).isSome ↔ ∃ x, FunctionFits before after x := by
  rw [Option.isSome_iff_exists]
  simp only [functionHere?_eq_some_iff before]
  constructor
  · rintro ⟨x, word, rest, rfl, -⟩
    exact ⟨x, word, List.prefix_append ..⟩
  · rintro ⟨⟨name, params⟩, word, rest, rfl⟩
    have closed : "):".toList <:+: params ++ "):".toList ++ rest := List.infix_append ..
    cases cut : Text.splitLast "):".toList (params ++ "):".toList ++ rest) with
    | none => exact absurd closed (Text.splitLast_eq_none_iff.1 cut)
    | some p =>
      obtain ⟨whole, last⟩ := (Text.splitLast_eq_some_iff (by decide)).1 cut
      refine ⟨(name, p.1), word, p.2, ?_, last⟩
      simp only [List.append_assoc] at whole ⊢
      rw [whole]
      rfl

theorem recognizes_function :
    Recognizes "def ".toList FunctionFits FunctionReads function? :=
  recognizes_of_here (fun _ after => functionHere? after)
    (fun before _ => functionHere?_isSome_iff before)
    fun before _ _ => functionHere?_eq_some_iff before

/-! ### Appends -/

/-- A word right before, and right after it an item that is not empty and that is closed. -/
def AppendFits (before after : Text) (x : Text × Text) : Prop :=
  IsWord x.1 ∧ x.2 ≠ [] ∧ x.1 <:+ before ∧ x.2 ++ ")".toList <+: after

/-- The name starts behind the last character that is no part of a word, and the item reaches up to
the last closing parenthesis. -/
def AppendReads (before after : Text) (x : Text × Text) : Prop :=
  IsWord x.1 ∧ x.2 ≠ [] ∧
    (∃ front, before = front ++ x.1 ∧ ∀ c ∈ front.getLast?, ¬ Text.isWordChar c) ∧
    ∃ rest, after = x.2 ++ ")".toList ++ rest ∧ ')' ∉ rest

theorem splitLast_close_eq_some_iff {after item rest : Text} :
    Text.splitLast [')'] after = some (item, rest) ↔
      after = item ++ ")".toList ++ rest ∧ ')' ∉ rest := by
  rw [Text.splitLast_eq_some_iff (by decide), List.singleton_infix_iff]
  rfl

theorem appendHere?_eq_some_iff {before after : Text} {x : Text × Text} :
    appendHere? before after = some x ↔ AppendReads before after x := by
  obtain ⟨name, item⟩ := x
  rw [appendHere?]
  constructor
  · intro h
    split at h
    · cases h
    · next word =>
      split at h
      · next cut =>
        split at h
        · cases h
        · next ne_nil =>
          cases h
          obtain ⟨front, whole, chars, stop⟩ := wordAtEnd_eq_iff.1 (Eq.refl (wordAtEnd before))
          exact ⟨⟨word, chars⟩, ne_nil, ⟨front, whole, stop⟩, _, splitLast_close_eq_some_iff.1 cut⟩
      · cases h
  · rintro ⟨word, ne_nil, ⟨front, whole, stop⟩, rest, close⟩
    rw [wordAtEnd_eq_iff.2 ⟨front, whole, word.chars, stop⟩, if_neg word.ne_nil,
      splitLast_close_eq_some_iff.2 close]
    exact if_neg ne_nil

/-- A word that stands right before a place is the end of the word that is there. -/
theorem isWord_wordAtEnd {front name : Text} (word : IsWord name) :
    IsWord (wordAtEnd (front ++ name)) := by
  obtain ⟨front', whole, chars, stop⟩ := wordAtEnd_eq_iff.1 (Eq.refl (wordAtEnd (front ++ name)))
  refine ⟨fun nil => ?_, chars⟩
  rw [nil, List.append_nil] at whole
  rw [← whole, List.getLast?_append_of_ne_nil _ word.ne_nil] at stop
  have last := List.getLast?_eq_getLast_of_ne_nil word.ne_nil
  exact stop _ last (word.chars _ (List.getLast_mem word.ne_nil))

theorem appendHere?_isSome_iff {before after : Text} :
    (appendHere? before after).isSome ↔ ∃ x, AppendFits before after x := by
  rw [Option.isSome_iff_exists]
  simp only [appendHere?_eq_some_iff]
  constructor
  · rintro ⟨x, word, ne_nil, ⟨front, rfl, -⟩, rest, rfl, -⟩
    exact ⟨x, word, ne_nil, List.suffix_append .., List.prefix_append ..⟩
  · rintro ⟨⟨name, item⟩, word, ne_nil, ⟨front, rfl⟩, rest, rfl⟩
    obtain ⟨front', whole, -, stop⟩ := wordAtEnd_eq_iff.1 (Eq.refl (wordAtEnd (front ++ name)))
    cases cut : Text.splitLast [')'] (item ++ ")".toList ++ rest) with
    | none =>
      rw [Text.splitLast_eq_none_iff, List.singleton_infix_iff] at cut
      exact absurd (by simp) cut
    | some p =>
      obtain ⟨close, last⟩ := splitLast_close_eq_some_iff.1 cut
      refine ⟨(wordAtEnd (front ++ name), p.1), isWord_wordAtEnd word, ?_, ⟨front', whole, stop⟩,
        p.2, close, last⟩
      -- an empty item would be closed before the one that is there
      intro nil
      obtain ⟨c, item, rfl⟩ := List.exists_cons_of_ne_nil ne_nil
      have behind : c :: (item ++ ")".toList ++ rest) = ')' :: p.2 := by
        rw [show p.1 = [] from nil] at close
        exact close
      apply last
      rw [← (List.cons.inj behind).2]
      simp

theorem recognizes_append : Recognizes ".append(".toList AppendFits AppendReads append? :=
  recognizes_of_here appendHere? (fun _ _ => appendHere?_isSome_iff)
    fun _ _ _ => appendHere?_eq_some_iff

/-! ### All three -/

/-- Prompts, function headers and appends are read wherever they stand on a line and nowhere else,
at the leftmost place and with the parts that `Recognizes` says.  So each of them alone on a line
gives its parts back, whatever keywords and parentheses stand in the texts. -/
theorem recognizes_shapes :
    Recognizes "input(\"".toList PromptFits PromptFits prompt? ∧
    Recognizes "def ".toList FunctionFits FunctionReads function? ∧
    Recognizes ".append(".toList AppendFits AppendReads append? ∧
    (∀ q : Text, '"' ∉ q → prompt? ("input(\"".toList ++ q ++ "\")".toList) = some q) ∧
    ∀ w : Text, IsWord w →
      (∀ p : Text, function? ("def ".toList ++ w ++ "(".toList ++ p ++ "):".toList) =
        some (w, p)) ∧
      ∀ i : Text, i ≠ [] → append? (w ++ ".append(".toList ++ i ++ ")".toList) = some (w, i) := by
  refine ⟨recognizes_prompt, recognizes_function, recognizes_append, fun q quote => ?_,
    fun w word => ⟨fun p => ?_, fun i ne_nil => ?_⟩⟩
  · rw [List.append_assoc]
    exact recognizes_prompt.eq_some_of_head ⟨quote, List.prefix_rfl⟩
  · simp only [List.append_assoc]
    refine recognizes_function.eq_some_of_head ⟨word, [], ?_, by decide⟩
    simp
  · rw [List.append_assoc]
    exact Statement.append?_appendLine word ne_nil

/-- The name of the function is a keyword, its parameters close parentheses, and the item is an
append itself. -/
theorem recognizes_shapes_nested : '"' ∉ "input('a')".toList ∧
    prompt? "input(\"input('a')\")".toList = some "input('a')".toList ∧ IsWord "def".toList ∧
    function? "def def(a):, (b):".toList = some ("def".toList, "a):, (b".toList) ∧
    append? "def.append(x.append(1))".toList = some ("def".toList, "x.append(1)".toList) := by
  obtain ⟨-, -, -, prompt, words⟩ := recognizes_shapes
  obtain ⟨function, append⟩ := words "def".toList (by decide)
  exact ⟨by decide, prompt "input('a')".toList (by decide), by decide,
    function "a):, (b".toList, append "x.append(1)".toList (by decide)⟩

end Shape
end BlockCanvas
