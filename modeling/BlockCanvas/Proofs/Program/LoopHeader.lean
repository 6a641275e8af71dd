import BlockCanvas.Proofs.Program.Shapes

/-!
# Loop headers

`LoopHeader` is a loop header as it is written: a word, one or two numbers, and what stands between
them.  These texts are the ones that are recognized, wherever they stand on a line, and the numbers
of the leftmost one are those of the loop: `recognizes_range`.  The parts of a header can be found
from left to right without going back, since none of them can be continued by what follows it
(`boundsHere?_bounds`).
-/

namespace BlockCanvas
namespace Shape

open Text (IsWord IsDigits)

/-- The parts of a written loop header. -/
structure LoopHeader where
  var : Text
  first : Text
  comma : Bool
  blanks : Text
  second : Text

namespace LoopHeader

/-- What stands after ` in range(`. -/
def bounds (h : LoopHeader) : Text :=
  h.first ++ ((if h.comma then [','] else []) ++ h.blanks ++ h.second ++ "):".toList)

/-- The header without the keyword. -/
def text (h : LoopHeader) : Text := h.var ++ " in range(".toList ++ h.bounds

/-- The range of the loop; a single number is its end. -/
def range (h : LoopHeader) : Range :=
  if h.second = [] then ⟨h.var, 0, Text.decimalValue h.first⟩
  else ⟨h.var, Text.decimalValue h.first, Text.decimalValue h.second⟩

/-- The bounds of a header are well written: digits, then an optional comma and blanks, then digits
or nothing, with values below `2 ^ 63`. -/
structure Bounded (h : LoopHeader) : Prop where
  first : IsDigits h.first
  blanks : ∀ c ∈ h.blanks, Text.isBlank c
  second : ∀ c ∈ h.second, c.isDigit
  /-- The first number has all the digits that stand there. -/
  maximal : h.comma = false → h.blanks = [] → h.second = []
  first_lt : Text.decimalValue h.first < 2 ^ 63
  second_lt : Text.decimalValue h.second < 2 ^ 63

end LoopHeader

/-- A word and well written bounds stand after the keyword. -/
def RangeFits (_before after : Text) (r : Range) : Prop :=
  ∃ h : LoopHeader, IsWord h.var ∧ h.Bounded ∧ h.text <+: after ∧ h.range = r

/-! ### Numbers -/

theorem bound?_eq_some_iff {digits : Text} {n : Nat} :
    bound? digits = some n ↔ Text.decimalValue digits = n ∧ Text.decimalValue digits < 2 ^ 63 := by
  simp only [bound?, Option.ite_none_right_eq_some, Option.some.injEq, Nat.reducePow]
  exact and_comm

/-- A comma is dropped if it is there, and else nothing starts with one. -/
theorem dropComma_append (comma : Bool) {s : Text} (other : s.head? ≠ some ',') :
    dropComma ((if comma then [','] else []) ++ s) = s := by
  cases comma with
  | true => rfl
  | false =>
    rw [if_neg Bool.false_ne_true, List.nil_append, dropComma.eq_def]
    split
    · exact absurd rfl other
    · rfl

theorem dropComma_spec (s : Text) :
    ∃ comma : Bool, s = (if comma then [','] else []) ++ dropComma s := by
  rw [dropComma.eq_def]
  split
  · exact ⟨true, rfl⟩
  · exact ⟨false, rfl⟩

theorem trimStart_append {blanks s : Text} (all : ∀ c ∈ blanks, Text.isBlank c)
    (stop : ∀ c ∈ s.head?, ¬ Text.isBlank c) : Text.trimStart (blanks ++ s) = s :=
  (Prod.mk.inj (Text.span_eq_iff.2 ⟨rfl, all, stop⟩)).2

theorem not_isDigit_of_isBlank {c : Char} (h : Text.isBlank c) : ¬ c.isDigit := by
  intro digit
  rw [Text.isBlank_of_isWordChar (Text.isWordChar_of_isDigit digit)] at h
  cases h

theorem mem_head?_append {c : Char} {s t : Text} (h : c ∈ (s ++ t).head?) :
    c ∈ s ∨ s = [] ∧ c ∈ t.head? := by
  cases s with
  | nil => exact .inr ⟨rfl, h⟩
  | cons d s =>
    obtain rfl := Option.some.inj h
    exact .inl List.mem_cons_self

/-! ### Bounds -/

section

variable {comma : Bool} {blanks second rest : Text}

theorem eq_close_of_mem_head? : ∀ c ∈ ("):".toList ++ rest).head?, c = ')' := by
  rintro c ⟨⟩
  rfl

theorem not_isBlank_second (isSecond : ∀ c ∈ second, c.isDigit) :
    ∀ c ∈ (second ++ ("):".toList ++ rest)).head?, ¬ Text.isBlank c := by
  intro c hc blank
  rcases mem_head?_append hc with digit | ⟨-, hc⟩
  · exact not_isDigit_of_isBlank blank (isSecond c digit)
  · obtain rfl := eq_close_of_mem_head? c hc
    cases blank

variable (isBlanks : ∀ c ∈ blanks, Text.isBlank c)
include isBlanks

theorem head?_blanks_ne_comma (isSecond : ∀ c ∈ second, c.isDigit) :
    (blanks ++ (second ++ ("):".toList ++ rest))).head? ≠ some ',' := by
  intro hc
  rcases mem_head?_append hc with blank | ⟨-, hc⟩
  · cases isBlanks ',' blank
  · rcases mem_head?_append hc with digit | ⟨-, hc⟩
    · cases isSecond ',' digit
    · cases eq_close_of_mem_head? ',' hc

/-- No digit stands behind the first number. -/
theorem not_isDigit_gap (maximal : comma = false → blanks = [] → second = []) :
    ∀ c ∈ ((if comma then [','] else []) ++
      (blanks ++ (second ++ ("):".toList ++ rest)))).head?, ¬ c.isDigit := by
  intro c hc digit
  cases comma with
  | true =>
    cases hc
    cases digit
  | false =>
    rcases mem_head?_append (s := blanks) hc with blank | ⟨none, hc⟩
    · exact not_isDigit_of_isBlank (isBlanks c blank) digit
    · rw [maximal rfl none] at hc
      obtain rfl := eq_close_of_mem_head? c hc
      cases digit

end

/-- Each part of a header ends where the next one starts. -/
theorem boundsHere?_bounds {h : LoopHeader} (bounded : h.Bounded) (rest : Text) :
    boundsHere? h.var (h.bounds ++ rest) = some h.range := by
  obtain ⟨var, first, comma, blanks, second⟩ := h
  obtain ⟨isFirst, isBlanks, isSecond, maximal, first_lt, second_lt⟩ := bounded
  dsimp only at *
  have taken : Text.takeDigits (LoopHeader.bounds ⟨var, first, comma, blanks, second⟩ ++ rest) =
      (first, (if comma then [','] else []) ++ (blanks ++ (second ++ ("):".toList ++ rest)))) := by
    simp only [LoopHeader.bounds, List.append_assoc]
    exact Text.takeDigits_append isFirst.isDigit (not_isDigit_gap isBlanks maximal)
  have taken' : Text.takeDigits (second ++ ("):".toList ++ rest)) = (second, "):".toList ++ rest) :=
    Text.takeDigits_append isSecond fun c hc => by rw [eq_close_of_mem_head? c hc]; decide
  have value {digits : Text} (h : Text.decimalValue digits < 2 ^ 63) :
      bound? digits = some (Text.decimalValue digits) := bound?_eq_some_iff.2 ⟨rfl, h⟩
  rw [boundsHere?, taken]
  dsimp only
  rw [if_neg isFirst.ne_nil, dropComma_append comma (head?_blanks_ne_comma isBlanks isSecond),
    trimStart_append isBlanks (not_isBlank_second isSecond), taken']
  dsimp only
  rw [Text.isPrefixOf?_self_append, value first_lt, LoopHeader.range]
  dsimp only
  split
  · rfl
  · rw [value second_lt, Option.map_some]

/-- Bounds that are read went through all steps of the reading. -/
theorem boundsHere?_steps {var after : Text} {r : Range} (h : boundsHere? var after = some r) :
    ∃ first tail second rest, Text.takeDigits after = (first, tail) ∧ first ≠ [] ∧
      Text.takeDigits (Text.trimStart (dropComma tail)) = (second, "):".toList ++ rest) ∧
      Text.decimalValue first < 2 ^ 63 ∧ Text.decimalValue second < 2 ^ 63 ∧
      ∀ comma blanks, LoopHeader.range ⟨var, first, comma, blanks, second⟩ = r := by
  rw [boundsHere?] at h
  rcases taken : Text.takeDigits after with ⟨first, tail⟩
  rw [taken] at h
  dsimp only at h
  rcases taken' : Text.takeDigits (Text.trimStart (dropComma tail)) with ⟨second, tail'⟩
  rw [taken'] at h
  dsimp only at h
  split at h
  · cases h
  next ne_nil =>
  split at h
  · cases h
  next rest close =>
  split at h
  · cases h
  next a low =>
  obtain ⟨rfl, first_lt⟩ := bound?_eq_some_iff.1 low
  obtain rfl := Text.isPrefixOf?_append close
  refine ⟨first, tail, second, rest, rfl, ne_nil, taken', first_lt, ?_⟩
  split at h
  · next none =>
    subst none
    exact ⟨Nat.two_pow_pos 63, fun _ _ => Option.some.inj h⟩
  · next some =>
    obtain ⟨b, high, rfl⟩ := Option.map_eq_some_iff.1 h
    obtain ⟨rfl, second_lt⟩ := bound?_eq_some_iff.1 high
    exact ⟨second_lt, fun _ _ => if_neg some⟩

/-- What is read as bounds is written as such. -/
theorem bounds_of_boundsHere? {var after : Text} {r : Range} (h : boundsHere? var after = some r) :
    ∃ w : LoopHeader, w.var = var ∧ w.Bounded ∧ w.bounds <+: after ∧ w.range = r := by
  obtain ⟨first, tail, second, rest, taken, ne_nil, taken', first_lt, second_lt, range⟩ :=
    boundsHere?_steps h
  obtain ⟨rfl, isFirst, stop⟩ := Text.span_eq_iff.1 taken
  obtain ⟨whole, isSecond, -⟩ := Text.span_eq_iff.1 taken'
  obtain ⟨comma, dropped⟩ := dropComma_spec tail
  obtain ⟨trimmed, isBlanks, -⟩ :=
    (Text.span_eq_iff (p := Text.isBlank) (s := dropComma tail)).1 rfl
  have parts : tail = (if comma then [','] else []) ++
      ((dropComma tail).takeWhile Text.isBlank ++ (second ++ ("):".toList ++ rest))) := by
    rw [← whole, Text.trimStart, ← trimmed, ← dropped]
  clear dropped trimmed whole taken'
  generalize (dropComma tail).takeWhile Text.isBlank = blanks at *
  have maximal : comma = false → blanks = [] → second = [] := by
    rintro rfl rfl
    cases second with
    | nil => rfl
    | cons d second =>
      rw [parts] at stop
      exact absurd (isSecond d List.mem_cons_self) (stop d rfl)
  refine ⟨⟨var, first, comma, blanks, second⟩, rfl, ⟨⟨ne_nil, isFirst⟩, isBlanks, isSecond, maximal,
    first_lt, second_lt⟩, ⟨rest, ?_⟩, range comma blanks⟩
  rw [parts]
  simp only [LoopHeader.bounds, List.append_assoc]

/-! ### Headers -/

theorem rangeHere?_eq_some_iff (before : Text) {after : Text} {r : Range} :
    rangeHere? after = some r ↔ RangeFits before after r := by
  constructor
  · intro h
    rw [rangeHere?] at h
    split at h
    · cases h
    next var rest head =>
    split at h
    · cases h
    next rest call =>
    obtain ⟨word, rfl, -⟩ := word?_eq_some_iff.1 head
    obtain ⟨w, rfl, bounded, ⟨rest, rfl⟩, range⟩ := bounds_of_boundsHere? h
    obtain rfl := Text.isPrefixOf?_append call
    refine ⟨w, word, bounded, ⟨rest, ?_⟩, range⟩
    simp only [LoopHeader.text, List.append_assoc]
  · rintro ⟨w, word, bounded, ⟨rest, rfl⟩, rfl⟩
    have parts : w.text ++ rest = w.var ++ (" in range(".toList ++ (w.bounds ++ rest)) := by
      simp only [LoopHeader.text, List.append_assoc]
    have stop : ∀ c ∈ (" in range(".toList ++ (w.bounds ++ rest)).head?, ¬ Text.isWordChar c := by
      rintro c ⟨⟩
      decide
    rw [parts, rangeHere?, word?_eq_some_iff.2 ⟨word, rfl, stop⟩]
    dsimp only
    rw [Text.isPrefixOf?_self_append]
    exact boundsHere?_bounds bounded rest

theorem recognizes_forHeader : Recognizes "for ".toList RangeFits RangeFits range? :=
  recognizes_of_here (fun _ after => rangeHere? after)
    (fun before _ => by simp only [Option.isSome_iff_exists, rangeHere?_eq_some_iff before])
    fun before _ _ => rangeHere?_eq_some_iff before

/-- Loop headers are read wherever they stand on a line and nowhere else, and the leftmost one
gives the loop.  So a header alone on a line gives back its word, whatever keyword it is, and its
one or two numbers. -/
theorem recognizes_range :
    Recognizes "for ".toList RangeFits RangeFits range? ∧
    ∀ v : Text, IsWord v → ∀ a b : Nat, a < 2 ^ 63 → b < 2 ^ 63 →
      range? ("for ".toList ++ v ++ " in range(".toList ++ Text.ofNat a ++ ", ".toList ++
        Text.ofNat b ++ "):".toList) = some ⟨v, a, b⟩ ∧
      range? ("for ".toList ++ v ++ " in range(".toList ++ Text.ofNat b ++ "):".toList) =
        some ⟨v, 0, b⟩ := by
  refine ⟨recognizes_forHeader, fun v word a b low high => ?_⟩
  have digits (n : Nat) : IsDigits (Text.ofNat n) := Text.isDigits_ofNat n
  have value (n : Nat) : Text.decimalValue (Text.ofNat n) = n := Text.decimalValue_ofNat n
  constructor
  · simp only [List.append_assoc]
    refine recognizes_forHeader.eq_some_of_head
      ⟨⟨v, Text.ofNat a, true, [' '], Text.ofNat b⟩, word, ⟨digits a, by simp [Text.isBlank],
        (digits b).isDigit, by simp, by rwa [value], by rwa [value]⟩, ?_, ?_⟩
    · simp [LoopHeader.text, LoopHeader.bounds]
    · rw [LoopHeader.range, if_neg (digits b).ne_nil, value, value]
  · simp only [List.append_assoc]
    refine recognizes_forHeader.eq_some_of_head
      ⟨⟨v, Text.ofNat b, false, [], []⟩, word, ⟨digits b, by simp, by simp, by simp,
        by rwa [value], Nat.two_pow_pos 63⟩, ?_, ?_⟩
    · simp [LoopHeader.text, LoopHeader.bounds]
    · rw [LoopHeader.range, if_pos rfl, value]

/-- The variable of the loop is a keyword, and the end is the largest one that is read. -/
theorem recognizes_range_keyword : IsWord "for".toList ∧ 0 < 2 ^ 63 ∧ 2 ^ 63 - 1 < 2 ^ 63 ∧
    range? "for for in range(0, 9223372036854775807):".toList =
      some ⟨"for".toList, 0, 2 ^ 63 - 1⟩ ∧
    range? "for for in range(9223372036854775807):".toList =
      some ⟨"for".toList, 0, 2 ^ 63 - 1⟩ := by
  have word : IsWord "for".toList := by decide
  have digits : Text.ofNat (2 ^ 63 - 1) = "9223372036854775807".toList := by decide +kernel
  have lines := recognizes_range.2 "for".toList word 0 (2 ^ 63 - 1) (by decide) (by decide)
  rw [digits] at lines
  exact ⟨word, by decide, by decide, lines⟩

end Shape
end BlockCanvas
