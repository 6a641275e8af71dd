import BlockCanvas.Proofs.Number.Numeral
import BlockCanvas.Proofs.Program.Chain
import BlockCanvas.Proofs.Program.Handlers

/-!
# Words in lines

A word has none of the characters by which statements are told apart: no blank, no quote, no
bracket, no point and no equals sign.  So a loop header or an append that is made of words is what
it looks like, whichever words they are, keywords included: `takenBy_header`,
`takenBy_appendLine`.
-/

namespace BlockCanvas
namespace Text

variable {s rest : Text} {c : Char}

/-- Letters, digits and underscores, at least one of them. -/
structure IsWord (s : Text) : Prop where
  ne_nil : s ≠ []
  chars : ∀ c ∈ s, isWordChar c

instance : DecidablePred IsWord := fun s =>
  decidable_of_iff (s ≠ [] ∧ s.all isWordChar)
    ⟨fun h => ⟨h.1, List.all_eq_true.1 h.2⟩, fun h => ⟨h.1, List.all_eq_true.2 h.2⟩⟩

theorem notMem_of_word (word : ∀ c ∈ s, isWordChar c) (other : isWordChar c = false) : c ∉ s := by
  intro member
  rw [word c member] at other
  cases other

theorem IsWord.notMem (h : IsWord s) (other : isWordChar c = false) : c ∉ s :=
  notMem_of_word h.chars other

theorem isWordChar_of_isDigit (h : c.isDigit) : isWordChar c := by
  rw [isWordChar, Char.isAlphanum, h, Bool.or_true, Bool.true_or]

theorem IsDigits.isWord (h : IsDigits s) : IsWord s where
  ne_nil := h.ne_nil
  chars c hc := isWordChar_of_isDigit (h.isDigit c hc)

/-- What is taken from the head of a text ends at the first character that does not belong to
it. -/
theorem span_append_cons {p : Char → Bool} (all : ∀ c ∈ s, p c) (stop : p c = false)
    (rest : Text) : ((s ++ c :: rest).takeWhile p, (s ++ c :: rest).dropWhile p) =
      (s, c :: rest) := by
  refine span_eq_iff.2 ⟨rfl, all, ?_⟩
  rintro d ⟨⟩
  exact Bool.eq_false_iff.1 stop

theorem takeWord_append_cons (word : ∀ c ∈ s, isWordChar c) (stop : isWordChar c = false)
    (rest : Text) : takeWord (s ++ c :: rest) = (s, c :: rest) :=
  span_append_cons word stop rest

theorem takeDigits_append_cons (digits : ∀ c ∈ s, c.isDigit) (stop : c.isDigit = false)
    (rest : Text) : takeDigits (s ++ c :: rest) = (s, c :: rest) :=
  span_append_cons digits stop rest

end Text

open Text (IsWord IsDigits)

namespace Expression

variable {s : Text}

/-- A word as a part of an expression. -/
def Atom.ofWord (word : IsWord s) : Atom where
  text := s
  ne_nil := word.ne_nil
  noBlank c hc := Text.isBlank_of_isWordChar (word.chars c hc)
  noQuote := ⟨word.notMem (by decide), word.notMem (by decide)⟩
  noOperator := by
    intro sign
    simp only [List.mem_cons, List.not_mem_nil, or_false] at sign
    rcases sign with rfl | rfl | rfl | rfl
    all_goals exact word.notMem (by decide) List.mem_cons_self

theorem evaluate_word (word : IsWord s) (b : Bindings) :
    evaluate b s = .ok ((Atom.ofWord word).value b) :=
  Chain.evaluateIn_atom b maxExpressionDepth (Atom.ofWord word)

/-- What a word is evaluated to depends on what it is bound to, and on nothing else. -/
theorem evaluate_word_congr (word : IsWord s) {b b' : Bindings} (same : b.get? s = b'.get? s) :
    evaluate b s = evaluate b' s := by
  have name : (Atom.ofWord word).text = s := rfl
  rw [evaluate_word word, evaluate_word word, Atom.value, Atom.value, name, same]

/-- A word that is no number is read as the value that it is bound to, or else as itself. -/
theorem evaluate_of_word (word : IsWord s) (plain : Binary64.literal? s = none) (b : Bindings) :
    evaluate b s = .ok ((b.get? s).getD (.text s)) := by
  have name : (Atom.ofWord word).text = s := rfl
  rw [evaluate_word word, Atom.value, name, plain]

end Expression

theorem Shape.wordAtEnd_of_word {xs : Text} (word : ∀ c ∈ xs, Text.isWordChar c) :
    wordAtEnd xs = xs := by
  have all : ∀ c ∈ xs.reverse, Text.isWordChar c := fun c hc => word c (List.mem_reverse.1 hc)
  rw [wordAtEnd, ← List.append_nil xs.reverse, List.takeWhile_append_of_pos all]
  simp

namespace Statement

open BlockCanvas.Action

variable {config : Config} {b : Bindings} {line : Text}

/-! ### Rules that pass over words -/

theorem accepts_assignment_of_notMem (h : '=' ∉ line) : Rule.assignment.accepts line = false := by
  have none : Text.contains " = ".toList line = false := by
    rw [Text.contains_eq_false_iff]
    intro found
    exact h (found.subset (by decide))
  rw [Rule.accepts, none, Bool.false_and]

/-- A line with `==` is no assignment. -/
theorem accepts_assignment_of_equals (h : "==".toList <:+: line) :
    Rule.assignment.accepts line = false := by
  rw [Rule.accepts, Text.contains_iff.2 h, Bool.not_true, Bool.and_false]

theorem accepts_input_of_notMem (h : '(' ∉ line) : Rule.input.accepts line = false := by
  rw [Rule.accepts, Text.contains_eq_false_iff]
  intro found
  exact h (found.subset (by decide))

/-- An opening parenthesis that follows another name opens no prompt. -/
theorem accepts_input_eq_false {before after : Text} (first : '(' ∉ before) (last : '(' ∉ after)
    (other : before.getLast? ≠ some 't') :
    Rule.input.accepts (before ++ '(' :: after) = false := by
  rw [Rule.accepts, Text.contains_eq_false_iff]
  rintro ⟨left, right, whole⟩
  have places : left ++ "input".toList ++ '(' :: right = before ++ '(' :: after := by
    rw [← whole]
    simp
  rcases Text.eq_or_append_cons_of_notMem first places with ⟨same, -⟩ | ⟨between, -, later⟩
  · rw [← same, List.getLast?_append_of_ne_nil _ (by decide)] at other
    exact other rfl
  · rw [later] at last
    exact last (List.mem_append_right _ List.mem_cons_self)

/-- A word with a point after it starts with no keyword and the character after it. -/
theorem startsWith_word_point {xs first : Text} (word : ∀ c ∈ xs, Text.isWordChar c) {c : Char}
    (hc : c ∈ first) (other : Text.isWordChar c = false) (point : '.' ∉ first) (rest : Text) :
    Rule.startsWith first (xs ++ '.' :: rest) = false := by
  rw [Bool.eq_false_iff, Rule.startsWith, ne_eq, List.isPrefixOf_iff_prefix]
  intro found
  rcases Text.prefix_append_cases found with inside | ⟨t, rfl, across⟩
  · exact Text.notMem_of_word word other (inside.subset hc)
  · rcases List.prefix_cons_iff.1 across with rfl | ⟨t, rfl, -⟩
    · rw [List.append_nil] at hc
      exact Text.notMem_of_word word other hc
    · exact point (List.mem_append_right _ List.mem_cons_self)

theorem accepts_keyword_word_point {xs rest : Text} (word : ∀ c ∈ xs, Text.isWordChar c)
    {rule : Rule} (h : rule ∈ [Rule.print, .forRange, .ifHeader, .defHeader]) :
    rule.accepts (xs ++ '.' :: rest) = false := by
  have start {first : Text} {c : Char} (hc : c ∈ first) (other : Text.isWordChar c = false)
      (point : '.' ∉ first) : Rule.startsWith first (xs ++ '.' :: rest) = false :=
    startsWith_word_point word hc other point rest
  simp only [List.mem_cons, List.not_mem_nil, or_false] at h
  rcases h with rfl | rfl | rfl | rfl
  · rw [Rule.accepts, start (c := '(') (by decide) (by decide) (by decide), Bool.false_and]
  all_goals
    rw [Rule.accepts, start (c := ' ') (by decide) (by decide) (by decide), Bool.false_and]

/-- A text between two others starts with the first and ends with the last of them. -/
theorem startsWith_and_endsWith (first e last : Text) :
    (Rule.startsWith first (first ++ e ++ last) && Rule.endsWith last (first ++ e ++ last)) =
      true := by
  rw [Bool.and_eq_true, Rule.startsWith, Rule.endsWith, List.isPrefixOf_iff_prefix,
    List.isSuffixOf_iff_suffix]
  exact ⟨(List.prefix_append ..).trans (List.prefix_append ..), List.suffix_append ..⟩

/-- A rule takes a line that it accepts and does not pass on, if the rules before it do not accept
the line. -/
theorem takenBy_of_accepts {rules after : List Rule} {rule : Rule} (before : List Rule)
    (order : rules = before ++ rule :: after) (others : ∀ r ∈ before, r.accepts line = false)
    (accepted : rule.accepts line = true)
    (takes : ((handle config line rule).on b).result ≠ .ok .passed) :
    TakenBy config b line rules rule :=
  ⟨before, after, order, fun r hr => declines_of_not_accepts (others r hr),
    fun declines => takes (declines accepted)⟩

/-! ### Output -/

theorem between?_print (e : Text) :
    Text.between? "print(".toList [')'] ("print(".toList ++ e ++ [')']) = some e :=
  Text.between?_append ..

theorem step_print {e : Text} {v : Value}
    (plain : Rule.assignment.accepts ("print(".toList ++ e ++ [')']) = false)
    (value : Expression.evaluate b e = .ok v) :
    (step config ("print(".toList ++ e ++ [')'])).on b = ⟨b, [v.display], .ok ()⟩ := by
  have accepted : Rule.print.accepts ("print(".toList ++ e ++ [')']) = true :=
    startsWith_and_endsWith "print(".toList e [')']
  rw [step, Rule.all, stepWith_of_declines (declines_of_not_accepts plain),
    stepWith_of_taken accepted (on_print (between?_print e) value)]

/-- A word that is no number is printed as the value that it is bound to, or else as itself. -/
theorem step_print_word {n : Text} (word : IsWord n) (plain : Binary64.literal? n = none)
    (config : Config) (b : Bindings) :
    (step config ("print(".toList ++ n ++ [')'])).on b =
      ⟨b, [((b.get? n).getD (.text n)).display], .ok ()⟩ := by
  have equals : '=' ∉ "print(".toList ++ n ++ [')'] := by
    have absent : '=' ∉ n := word.notMem (by decide)
    simp [absent]
  exact step_print (accepts_assignment_of_notMem equals)
    (Expression.evaluate_of_word word plain b)

/-! ### Loop headers -/

/-- The header of a loop over the numbers between two digit texts. -/
def header (v start stop : Text) : Text :=
  "for ".toList ++ (v ++ " in range(".toList ++ (start ++ ", ".toList ++ (stop ++ "):".toList)))

theorem header_eq (v start stop : Text) : header v start stop =
    "for ".toList ++ v ++ " in range".toList ++
      '(' :: (start ++ ", ".toList ++ stop ++ "):".toList) := by
  simp [header]

section

variable {v start stop : Text} (word : IsWord v) (first : IsDigits start) (last : IsDigits stop)
include word first last

theorem notMem_header {c : Char} (other : Text.isWordChar c = false)
    (mark : c ∉ "for  in range(, ):".toList) : c ∉ header v start stop := by
  have marks : "for  in range(, ):".toList =
      "for ".toList ++ (" in range(".toList ++ (", ".toList ++ "):".toList)) := rfl
  simp only [marks, List.mem_append, not_or] at mark
  simp only [header, List.mem_append, not_or]
  exact ⟨mark.1, ⟨word.notMem other, mark.2.1⟩, ⟨first.isWord.notMem other, mark.2.2.1⟩,
    last.isWord.notMem other, mark.2.2.2⟩

theorem range?_header (low : Text.decimalValue start < 2 ^ 63)
    (high : Text.decimalValue stop < 2 ^ 63) : Shape.range? (header v start stop) =
      some ⟨v, Text.decimalValue start, Text.decimalValue stop⟩ := by
  have name (rest : Text) : Shape.word? (v ++ ' ' :: rest) = some (v, ' ' :: rest) := by
    rw [Shape.word?, Text.takeWord_append_cons word.chars (by decide)]
    exact if_neg word.ne_nil
  have bound {digits : Text} (h : Text.decimalValue digits < 2 ^ 63) :
      Shape.bound? digits = some (Text.decimalValue digits) := by
    rw [Shape.bound?]
    exact if_pos (Nat.lt_of_lt_of_le h (by decide))
  have closed : "):".toList.isPrefixOf? "):".toList = some [] := rfl
  have untrimmed : Text.trimStart (' ' :: (stop ++ "):".toList)) = stop ++ "):".toList := by
    show Text.trimStart (stop ++ "):".toList) = _
    apply Text.trimStart_eq_self
    intro c hc
    rw [List.head?_append_of_ne_nil _ last.ne_nil] at hc
    exact Text.isBlank_of_isWordChar (last.isWord.chars c (List.mem_of_mem_head? hc))
  have bounds : Shape.boundsHere? v (start ++ ", ".toList ++ (stop ++ "):".toList)) =
      some ⟨v, Text.decimalValue start, Text.decimalValue stop⟩ := by
    have digits : Text.takeDigits (start ++ ", ".toList ++ (stop ++ "):".toList)) =
        (start, ',' :: ' ' :: (stop ++ "):".toList)) := by
      rw [List.append_assoc]
      exact Text.takeDigits_append_cons first.isDigit (by decide) _
    have digits' : Text.takeDigits (stop ++ "):".toList) = (stop, "):".toList) :=
      Text.takeDigits_append_cons last.isDigit (by decide) _
    rw [Shape.boundsHere?, digits]
    dsimp only
    rw [if_neg first.ne_nil, Shape.dropComma, untrimmed, digits']
    dsimp only
    rw [closed, bound low, bound high]
    exact if_neg last.ne_nil
  have here : Shape.rangeHere? (v ++ " in range(".toList ++
      (start ++ ", ".toList ++ (stop ++ "):".toList))) =
        some ⟨v, Text.decimalValue start, Text.decimalValue stop⟩ := by
    have blank (rest : Text) : " in range(".toList ++ rest = ' ' :: ("in range(".toList ++ rest) :=
      rfl
    rw [List.append_assoc, blank, Shape.rangeHere?, name]
    exact bounds
  exact Text.findSome?_occurrences (Text.splitOnce_self_append (by decide) _) here

/-- No rule before the loops takes a header, whatever its variable is. -/
theorem takenBy_header (low : Text.decimalValue start < 2 ^ 63)
    (high : Text.decimalValue stop < 2 ^ 63) (config : Config) (b : Bindings) :
    TakenBy config b (header v start stop) Rule.all .forRange := by
  have assigned : Rule.assignment.accepts (header v start stop) = false :=
    accepts_assignment_of_notMem (notMem_header word first last (by decide) (by decide))
  have prompt : Rule.input.accepts (header v start stop) = false := by
    have hv : '(' ∉ v := word.notMem (by decide)
    have hstart : '(' ∉ start := first.isWord.notMem (by decide)
    have hstop : '(' ∉ stop := last.isWord.notMem (by decide)
    rw [header_eq]
    apply accepts_input_eq_false
    · simp [hv]
    · simp [hstart, hstop]
    · rw [List.getLast?_append_of_ne_nil _ (by decide)]
      decide
  have accepted : Rule.forRange.accepts (header v start stop) = true := by
    rw [Rule.accepts, Bool.and_eq_true, Rule.startsWith, List.isPrefixOf_iff_prefix,
      Text.contains_iff, header]
    refine ⟨List.prefix_append .., ?_⟩
    exact ((List.suffix_append ..).isInfix.trans (List.prefix_append ..).isInfix).trans
      (List.suffix_append ..).isInfix
  refine takenBy_of_accepts [.assignment, .print, .input] rfl ?_ accepted ?_
  · simp only [List.forall_mem_cons, List.not_mem_nil, false_imp_iff, implies_true, and_true]
    exact ⟨assigned, rfl, prompt⟩
  · have shape := range?_header word first last low high
    show ((forRange config _).on b).result ≠ _
    rcases Nat.lt_or_ge config.maxLoopIterations
      (Text.decimalValue stop - Text.decimalValue start) with many | few
    · rw [on_forRange_of_lt shape many]
      rintro ⟨⟩
    · rw [on_forRange shape few]
      rintro ⟨⟩

end

/-! ### Appends -/

/-- The line that appends an expression to a list. -/
def appendLine (xs e : Text) : Text := xs ++ ".append(".toList ++ (e ++ [')'])

/-- The first point of the line is the one after the word. -/
theorem append?_appendLine {xs e : Text} (list : IsWord xs) (ne_nil : e ≠ []) :
    Shape.append? (appendLine xs e) = some (xs, e) := by
  have first : Text.splitOnce ".append(".toList (appendLine xs e) = some (xs, e ++ [')']) := by
    have point : '.' ∉ xs := list.notMem (by decide)
    rw [appendLine, List.append_assoc, show ".append(".toList = '.' :: "append(".toList from rfl,
      Text.splitOnce_append_of_notMem point, Text.splitOnce_self_append (by decide),
      Option.map_some, List.append_nil]
  have here : Shape.appendHere? xs (e ++ [')']) = some (xs, e) := by
    rw [Shape.appendHere?, Shape.wordAtEnd_of_word list.chars, if_neg list.ne_nil,
      Text.splitLast_append_self (by decide)]
    exact if_neg ne_nil
  exact Text.findSome?_occurrences first here

theorem accepts_keyword_appendLine {xs : Text} (word : ∀ c ∈ xs, Text.isWordChar c) (e : Text)
    {rule : Rule} (h : rule ∈ [Rule.print, .forRange, .ifHeader, .defHeader]) :
    rule.accepts (appendLine xs e) = false := by
  rw [appendLine, List.append_assoc]
  exact accepts_keyword_word_point word h

/-- No rule before the appends takes an append of a word to a word. -/
theorem takenBy_appendLine {xs e : Text} (list : IsWord xs) (item : IsWord e) (config : Config)
    (b : Bindings) : TakenBy config b (appendLine xs e) Rule.all .append := by
  have keyword {rule : Rule} (h : rule ∈ [Rule.print, .forRange, .ifHeader, .defHeader]) :
      rule.accepts (appendLine xs e) = false := accepts_keyword_appendLine list.chars e h
  have assigned : Rule.assignment.accepts (appendLine xs e) = false := by
    have hxs : '=' ∉ xs := list.notMem (by decide)
    have he : '=' ∉ e := item.notMem (by decide)
    apply accepts_assignment_of_notMem
    simp [appendLine, hxs, he]
  have prompt : Rule.input.accepts (appendLine xs e) = false := by
    have hxs : '(' ∉ xs := list.notMem (by decide)
    have he : '(' ∉ e := item.notMem (by decide)
    have parts : appendLine xs e = xs ++ ".append".toList ++ '(' :: (e ++ [')']) := by
      simp [appendLine]
    rw [parts]
    apply accepts_input_eq_false
    · simp [hxs]
    · simp [he]
    · rw [List.getLast?_append_of_ne_nil _ (by decide)]
      decide
  have accepted : Rule.append.accepts (appendLine xs e) = true :=
    Text.contains_iff.2 ⟨xs, e ++ [')'], rfl⟩
  have takes : ((append config (appendLine xs e)).on b).result ≠ .ok .passed := by
    intro passed
    obtain ⟨_, _, -, -, taken⟩ := on_append_of_ok (append?_appendLine list item.ne_nil) passed
    rw [taken] at passed
    cases passed
  refine takenBy_of_accepts [.assignment, .print, .input, .forRange, .ifHeader, .defHeader] rfl ?_
    accepted takes
  simp only [List.forall_mem_cons, List.not_mem_nil, false_imp_iff, implies_true, and_true]
  exact ⟨assigned, keyword (by decide), prompt, keyword (by decide), keyword (by decide),
    keyword (by decide)⟩

end Statement
end BlockCanvas
