import BlockCanvas.Program.Expression
import BlockCanvas.Proofs.Number.Literal
import BlockCanvas.Proofs.Text.Line
import BlockCanvas.Proofs.Text.Search

/-!
# Chains of operators

Expressions are searched as texts, without tokens.  For atoms with operators between them this
makes no difference: `Chain` holds the tokens, `Chain.value` cuts them at the first operator of the
first kind that is there, and `evaluate_text` says that this is the value of the text.  The reason
is that in the text of a chain a space stands only next to an operator: so the text of an operator
is found where the operator is and nowhere else (`splitOnce_text`), and a text with a space between
its ends is no number and no name.
-/

namespace BlockCanvas
namespace Expression

/-- A text between operators: without blanks and quotes, and no operator itself. -/
structure Atom where
  text : Text
  ne_nil : text ≠ []
  noBlank : ∀ c ∈ text, Text.isBlank c = false
  noQuote : '"' ∉ text ∧ '\'' ∉ text
  noOperator : text ∉ [['+'], ['-'], ['*'], ['/']]

/-- Atoms with operators between them. -/
inductive Chain where
  | atom (a : Atom)
  | cons (a : Atom) (op : Operator) (rest : Chain)

/-- The value of an atom: a number, the value it is bound to, or else the text itself. -/
def Atom.value (b : Bindings) (a : Atom) : Value :=
  match Binary64.literal? a.text with
  | some x => .number x
  | none => (b.get? a.text).getD (.text a.text)

namespace Chain

def text : Chain → Text
  | atom a => a.text
  | cons a op rest => a.text ++ [' ', op.symbol, ' '] ++ rest.text

/-- How many operators a chain has. -/
def operators : Chain → Nat
  | atom _ => 0
  | cons _ _ rest => rest.operators + 1

def first : Chain → Atom
  | atom a => a
  | cons a _ _ => a

/-- The chains before and after the first place of an operator. -/
def cutAt? (op : Operator) : Chain → Option (Chain × Chain)
  | atom _ => none
  | cons a o rest =>
    if o = op then some (atom a, rest)
    else (rest.cutAt? op).map fun p => (cons a o p.1, p.2)

/-- The operator that is applied last, with the chains on its two sides. -/
def cut? (c : Chain) : Option (Operator × Chain × Chain) :=
  [Operator.add, .sub, .mul, .div].findSome? fun op =>
    (c.cutAt? op).map fun sides => (op, sides)

theorem operators_of_cutAt? {op : Operator} {c left right : Chain}
    (h : c.cutAt? op = some (left, right)) :
    left.operators + right.operators + 1 = c.operators := by
  induction c generalizing left with
  | atom a => cases h
  | cons a o rest ih =>
    rw [cutAt?] at h
    split at h
    case isTrue =>
      cases h
      simp only [operators, Nat.zero_add]
    case isFalse =>
      obtain ⟨⟨l, r⟩, hr, e⟩ := Option.map_eq_some_iff.1 h
      cases e
      have inside := ih hr
      simp only [operators] at inside ⊢
      omega

theorem operators_of_cut? {c left right : Chain} {op : Operator}
    (h : c.cut? = some (op, left, right)) :
    left.operators + right.operators + 1 = c.operators := by
  obtain ⟨o, -, ho⟩ := List.exists_of_findSome?_eq_some h
  obtain ⟨⟨l, r⟩, hr, e⟩ := Option.map_eq_some_iff.1 ho
  cases e
  exact operators_of_cutAt? hr

/-- The value of a chain: the parts before and after the operator that is applied last are
computed in this order, and then the operator is applied. -/
def value (b : Bindings) (c : Chain) : Except Fault Value :=
  match _h : c.cut? with
  | none => .ok (c.first.value b)
  | some (op, left, right) => do
    let l ← left.value b
    let r ← right.value b
    operate op l r
termination_by c.operators
decreasing_by all_goals have := operators_of_cut? _h; omega

end Chain

theorem Atom.space_notMem (a : Atom) : ' ' ∉ a.text := by
  intro h
  cases a.noBlank ' ' h

theorem Atom.text_ne_symbol (a : Atom) (op : Operator) : a.text ≠ [op.symbol] := by
  intro h
  apply a.noOperator
  rw [h]
  cases op <;> decide

namespace Chain

/-! ### Where operators stand -/

theorem exists_text_eq (c : Chain) : ∃ rest, c.text = c.first.text ++ rest := by
  cases c with
  | atom a => exact ⟨[], (List.append_nil _).symm⟩
  | cons a op rest => exact ⟨_, List.append_assoc ..⟩

/-- A chain starts with an atom, so no operator with its spaces stands around its first
character. -/
theorem not_token_start (op : Operator) (c : Chain) : ¬ op.token <+: ' ' :: c.text := by
  intro found
  have found : [op.symbol, ' '] <+: c.text := (List.cons_prefix_cons.1 found).2
  obtain ⟨rest, hr⟩ := c.exists_text_eq
  obtain ⟨d, word, hd⟩ := List.exists_cons_of_ne_nil c.first.ne_nil
  rw [hr, hd, List.cons_append, List.cons_prefix_cons] at found
  obtain ⟨rfl, found⟩ := found
  cases word with
  | nil => exact c.first.text_ne_symbol op hd
  | cons e word =>
    obtain rfl : ' ' = e := (List.cons_prefix_cons.1 found).1
    apply c.first.space_notMem
    rw [hd]
    exact List.mem_cons_of_mem _ List.mem_cons_self

theorem token_append (op : Operator) (s : Text) :
    op.token ++ s = ' ' :: op.symbol :: ' ' :: s := rfl

/-- The search for one operator passes over another one. -/
theorem splitOnce_token_append {o op : Operator} (h : o ≠ op) (c : Chain) :
    Text.splitOnce op.token (o.token ++ c.text) =
      (Text.splitOnce op.token c.text).map fun p => (o.token ++ p.1, p.2) := by
  have here : ¬ op.token <+: ' ' :: o.symbol :: ' ' :: c.text := by
    intro found
    have symbols : op.symbol = o.symbol :=
      (List.cons_prefix_cons.1 (List.cons_prefix_cons.1 found).2).1
    apply h
    cases o <;> cases op <;> first | rfl | cases symbols
  have inside : ¬ op.token <+: o.symbol :: ' ' :: c.text := by
    intro found
    have symbol : ' ' = o.symbol := (List.cons_prefix_cons.1 found).1
    cases o <;> cases symbol
  rw [token_append, Text.splitOnce_cons_of_not_start here,
    Text.splitOnce_cons_of_not_start inside,
    Text.splitOnce_cons_of_not_start (not_token_start op c), Option.map_map, Option.map_map]
  rfl

/-- The text of an operator stands in the text of a chain where the operator does, and nowhere
else. -/
theorem splitOnce_text (op : Operator) (c : Chain) :
    Text.splitOnce op.token c.text = (c.cutAt? op).map fun p => (p.1.text, p.2.text) := by
  induction c with
  | atom a => exact Text.splitOnce_of_notMem a.space_notMem
  | cons a o rest ih =>
    have passed : Text.splitOnce op.token (cons a o rest).text =
        (Text.splitOnce op.token (o.token ++ rest.text)).map fun p => (a.text ++ p.1, p.2) := by
      rw [text, List.append_assoc]
      exact Text.splitOnce_append_of_notMem a.space_notMem _
    rw [passed, cutAt?]
    split
    case isTrue same =>
      rw [same, Text.splitOnce_self_append (by simp [Operator.token]), Option.map_some,
        List.append_nil]
      rfl
    case isFalse other =>
      rw [splitOnce_token_append other, ih, Option.map_map, Option.map_map, Option.map_map]
      congr 1
      funext p
      simp only [Function.comp_apply, text, List.append_assoc]
      rfl

theorem cut?_text (c : Chain) :
    Expression.cut? c.text = c.cut?.map fun p => (p.1, p.2.1.text, p.2.2.text) := by
  simp only [Expression.cut?, cut?, splitOnce_text, List.map_findSome?, Operator.all]
  congr 1
  funext op
  simp only [Function.comp_apply, Option.map_map]
  rfl

theorem cut?_cons_isSome (a : Atom) (op : Operator) (rest : Chain) :
    (cons a op rest).cut?.isSome := by
  rw [cut?, List.findSome?_isSome_iff]
  refine ⟨op, by cases op <;> decide, ?_⟩
  simp [cutAt?]

/-! ### Texts that are no atoms -/

/-- What the text of a chain is made of. -/
theorem mem_text {d : Char} {c : Chain} (h : d ∈ c.text) :
    d = ' ' ∨ (∃ op : Operator, d = op.symbol) ∨ ∃ a : Atom, d ∈ a.text := by
  induction c with
  | atom a => exact .inr (.inr ⟨a, h⟩)
  | cons a op rest ih =>
    rw [text, List.mem_append, List.mem_append] at h
    rcases h with (h | h) | h
    · exact .inr (.inr ⟨a, h⟩)
    · simp only [List.mem_cons, List.not_mem_nil, or_false] at h
      rcases h with h | h | h
      · exact .inl h
      · exact .inr (.inl ⟨op, h⟩)
      · exact .inl h
    · exact ih h

theorem quote_notMem (c : Chain) : '"' ∉ c.text ∧ '\'' ∉ c.text := by
  constructor
  all_goals
    intro h
    rcases mem_text h with space | ⟨op, symbol⟩ | ⟨a, ha⟩
    · cases space
    · cases op <;> cases symbol
  · exact a.noQuote.1 ha
  · exact a.noQuote.2 ha

/-- The text of a chain has no blank at its ends. -/
theorem trim_text (c : Chain) : Text.trim c.text = c.text := by
  apply Text.trim_eq_self
  · intro d hd
    obtain ⟨rest, hr⟩ := c.exists_text_eq
    rw [hr, List.head?_append_of_ne_nil _ c.first.ne_nil] at hd
    exact c.first.noBlank d (List.mem_of_mem_head? hd)
  · induction c with
    | atom a =>
      intro d hd
      exact a.noBlank d (List.mem_of_mem_getLast? hd)
    | cons a op rest ih =>
      have ne_nil : rest.text ≠ [] := by
        obtain ⟨more, hr⟩ := rest.exists_text_eq
        rw [hr]
        exact List.append_ne_nil_of_left_ne_nil rest.first.ne_nil more
      rw [text, List.getLast?_append_of_ne_nil _ ne_nil]
      exact ih

theorem space_mem_text (a : Atom) (op : Operator) (rest : Chain) :
    ' ' ∈ (cons a op rest).text := by
  simp [text]

/-! ### Values -/

end Chain

theorem unquoteWith?_of_notMem {quote : Char} {e : Text} (h : quote ∉ e) :
    unquoteWith? quote e = none := by
  have alone : e ≠ [quote] := by
    rintro rfl
    exact h List.mem_cons_self
  have first : [quote].isPrefixOf? e = none := by
    rw [Text.isPrefixOf?_eq_none_iff]
    intro found
    exact h (found.subset List.mem_cons_self)
  rw [unquoteWith?, if_neg alone, Text.between?, first]

theorem unquote?_of_notMem {e : Text} (double : '"' ∉ e) (single : '\'' ∉ e) :
    unquote? e = none := by
  rw [unquote?, unquoteWith?_of_notMem double, unquoteWith?_of_notMem single]

namespace Chain

variable {b : Bindings}

/-- A chain with an operator is no atom, if no name has a space. -/
theorem atom?_text_cons (names : ∀ entry ∈ b.entries, ' ' ∉ entry.1) (a : Atom) (op : Operator)
    (rest : Chain) : atom? b (cons a op rest).text = none := by
  have quotes := (cons a op rest).quote_notMem
  have space := space_mem_text a op rest
  have number : Binary64.literal? (cons a op rest).text = none := by
    rw [Binary64.literal?, trim_text]
    exact Binary64.trimmedLiteral?_of_mem space rfl (by decide)
  rw [atom?, unquote?_of_notMem quotes.1 quotes.2, number]
  dsimp only
  rw [Bindings.get?, Option.map_eq_none_iff, List.find?_eq_none]
  intro entry he same
  apply names entry he
  rwa [eq_of_beq same]

theorem evaluateIn_atom (b : Bindings) (room : Nat) (a : Atom) :
    evaluateIn b room a.text = .ok (a.value b) := by
  have whole : Expression.cut? a.text = none := cut?_text (atom a)
  unfold evaluateIn Atom.value
  rw [atom?, unquote?_of_notMem a.noQuote.1 a.noQuote.2]
  cases Binary64.literal? a.text with
  | some x => rfl
  | none =>
    cases b.get? a.text with
    | some v => rfl
    | none =>
      dsimp only
      rw [whole]
      rfl

theorem value_atom (b : Bindings) (a : Atom) : (atom a).value b = .ok (a.value b) := by
  rw [value]
  rfl

theorem value_of_cut? {c left right : Chain} {op : Operator}
    (h : c.cut? = some (op, left, right)) :
    c.value b = (do
      let l ← left.value b
      let r ← right.value b
      operate op l r) := by
  rw [value]
  split
  · next e =>
    rw [h] at e
    cases e
  · next e =>
    rw [h] at e
    cases e
    rfl

/-- Each cut takes one operator away, so there is room for all of them. -/
theorem evaluateIn_text (names : ∀ entry ∈ b.entries, ' ' ∉ entry.1) (room : Nat) (c : Chain)
    (fits : c.operators ≤ room) : evaluateIn b room c.text = c.value b := by
  induction room generalizing c with
  | zero =>
    cases c with
    | atom a => rw [value_atom, text, evaluateIn_atom]
    | cons a op rest => cases fits
  | succ room ih =>
    cases c with
    | atom a => rw [value_atom, text, evaluateIn_atom]
    | cons a op rest =>
      obtain ⟨⟨last, left, right⟩, cut⟩ := Option.isSome_iff_exists.1 (cut?_cons_isSome a op rest)
      have parts := operators_of_cut? cut
      unfold evaluateIn
      rw [atom?_text_cons names, cut?_text, cut, value_of_cut? cut]
      dsimp only [Option.map_some]
      rw [ih left (by omega), ih right (by omega)]

/-- The value of the text of a chain with at most 256 operators is the value of the chain, in every
table of names without spaces. -/
theorem evaluate_text (b : Bindings) (names : ∀ entry ∈ b.entries, ' ' ∉ entry.1) (c : Chain)
    (short : c.operators ≤ 256) : evaluate b c.text = c.value b :=
  evaluateIn_text names _ c short

/-- `x * 2 - -3 + y`, with an atom that has a sign and one that is bound. -/
def mixed : Chain :=
  .cons ⟨['x'], by decide, by simp [Text.isBlank], by decide, by decide⟩ .mul <|
  .cons ⟨['2'], by decide, by simp [Text.isBlank], by decide, by decide⟩ .sub <|
  .cons ⟨['-', '3'], by decide, by simp [Text.isBlank], by decide, by decide⟩ .add <|
  .atom ⟨['y'], by decide, by simp [Text.isBlank], by decide, by decide⟩

theorem evaluate_text_mixed :
    (∀ entry ∈ (Bindings.empty.bind ['x'] (.number (.ofNat 4))).entries, ' ' ∉ entry.1) ∧
      mixed.operators ≤ 256 ∧
      evaluate (Bindings.empty.bind ['x'] (.number (.ofNat 4))) "x * 2 - -3 + y".toList =
        mixed.value (Bindings.empty.bind ['x'] (.number (.ofNat 4))) := by
  have names : ∀ entry ∈ (Bindings.empty.bind ['x'] (.number (.ofNat 4))).entries,
      ' ' ∉ entry.1 := by
    intro entry h
    obtain rfl := List.mem_singleton.1 h
    decide
  exact ⟨names, by decide, evaluate_text _ names mixed (by decide)⟩

end Chain
end Expression
end BlockCanvas
