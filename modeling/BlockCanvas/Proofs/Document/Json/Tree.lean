import BlockCanvas.Document.Json.Tree
import BlockCanvas.Proofs.Document.Json.Token

/-!
# Trees are read back

A tree without a flaw is read back from the text that is written for it: `parse_pretty`.  The text
is first read as the tokens of the tree, `spell`, whatever the indentation; these are then read as
the tree, `value_spell`.
-/

namespace BlockCanvas
namespace Json

/-! ### Whole trees -/

mutual

/-- A tree without a flaw: its numbers are strict, and its strings stand for texts. -/
def Whole : Json → Prop
  | .null | .bool _ => True
  | .number n => n.Strict
  | .string s => ∃ t, s = Literal.ofText t
  | .array is => is.Whole
  | .object ms => ms.Whole
  | .cutNumber | .garbled _ | .missing => False

def Items.Whole : Items → Prop
  | .close => True
  | .broken _ => False
  | .cons head tail => head.Whole ∧ tail.Whole

def Members.Whole : Members → Prop
  | .close => True
  | .broken _ | .dangling _ => False
  | .cons key v tail => (∃ t, key = Literal.ofText t) ∧ v.Whole ∧ tail.Whole

end

mutual

/-- A tree that breaks off nowhere. -/
def Flawless : Json → Prop
  | .null | .bool _ | .number _ => True
  | .string s => s.flaw = none
  | .array is => is.Flawless
  | .object ms => ms.Flawless
  | .cutNumber | .garbled _ | .missing => False

def Items.Flawless : Items → Prop
  | .close => True
  | .broken _ => False
  | .cons head tail => head.Flawless ∧ tail.Flawless

def Members.Flawless : Members → Prop
  | .close => True
  | .broken _ | .dangling _ => False
  | .cons key v tail => key.flaw = none ∧ v.Flawless ∧ tail.Flawless

end

mutual

theorem Whole.flawless : ∀ {j : Json}, j.Whole → j.Flawless
  | .null, _ | .bool _, _ | .number _, _ => trivial
  | .string _, ⟨_, e⟩ => congrArg Literal.flaw e
  | .array _, h => Items.Whole.flawless h
  | .object _, h => Members.Whole.flawless h

theorem Items.Whole.flawless : ∀ {is : Items}, is.Whole → is.Flawless
  | .close, _ => trivial
  | .cons _ _, ⟨head, tail⟩ => ⟨Whole.flawless head, Items.Whole.flawless tail⟩

theorem Members.Whole.flawless : ∀ {ms : Members}, ms.Whole → ms.Flawless
  | .close, _ => trivial
  | .cons _ _ _, ⟨⟨_, e⟩, v, tail⟩ =>
    ⟨congrArg Literal.flaw e, Whole.flawless v, Members.Whole.flawless tail⟩

end

mutual

/-- The tokens of a tree. -/
def spell : Json → List Token
  | .null => [.null]
  | .bool b => [.bool b]
  | .number n => [.number n]
  | .string s => [.string s]
  | .array is => .openArray :: spellItems is ++ [.closeArray]
  | .object ms => .openObject :: spellMembers ms ++ [.closeObject]
  | .cutNumber | .garbled _ | .missing => []

def spellItems : Items → List Token
  | .cons head (.cons next tail) => spell head ++ .comma :: spellItems (.cons next tail)
  | .cons head _ => spell head
  | _ => []

def spellMembers : Members → List Token
  | .cons key v (.cons next w tail) =>
    .string key :: .colon :: spell v ++ .comma :: spellMembers (.cons next w tail)
  | .cons key v _ => .string key :: .colon :: spell v
  | _ => []

end

/-! ### Texts -/

/-- What stands after a value: nothing, a comma or a new line. -/
def AfterValue (rest : Text) : Prop := ∀ c ∈ rest.head?, c = ',' ∨ c = '\n'

theorem afterValue_comma (rest : Text) : AfterValue (',' :: rest) := by
  rintro c ⟨⟩
  exact .inl rfl

theorem afterValue_newline (level : Nat) (rest : Text) : AfterValue (newline level ++ rest) := by
  rintro c ⟨⟩
  exact .inr rfl

theorem AfterValue.endsNumber {rest : Text} (h : AfterValue rest) : EndsNumber rest := by
  intro c hc
  rcases h c hc with rfl | rfl <;> decide

theorem tokens_colon_space (s : Text) : tokens (": ".toList ++ s) = .colon :: tokens s := by
  show tokens (':' :: ' ' :: s) = _
  rw [tokens_colon, tokens, if_pos (by decide)]

theorem tokens_newline (level : Nat) (rest : Text) :
    tokens (newline level ++ rest) = tokens rest := by
  refine tokens_blank (fun c hc => ?_) rest
  rcases List.mem_cons.1 hc with rfl | hc
  · rfl
  · rw [List.eq_of_mem_replicate hc]
    rfl

mutual

theorem tokens_prettyAt : ∀ (j : Json) (level : Nat) (rest : Text), j.Whole → AfterValue rest →
    tokens (prettyAt level j ++ rest) = spell j ++ tokens rest
  | .null, _, rest, _, _ => tokens_null rest
  | .bool b, _, rest, _, _ => tokens_bool b rest
  | .number n, _, rest, strict, after =>
    tokens_number (numberWrittenAs_text strict) after.endsNumber
  | .string s, _, rest, ⟨t, ht⟩, _ => by
    subst ht
    exact tokens_string (writtenAs_print t) rest
  | .array .close, _, rest, _, _ => by
    show tokens ('[' :: ']' :: rest) = _
    rw [tokens_openArray, tokens_closeArray]
    rfl
  | .array (.cons head tail), level, rest, h, after => by
    simp only [prettyAt, spell, List.cons_append, List.append_assoc]
    rw [tokens_openArray,
      tokens_prettyItems (.cons head tail) (level + 1) _ h (afterValue_newline level _),
      tokens_newline, List.nil_append, tokens_closeArray]
    rfl
  | .object .close, _, rest, _, _ => by
    show tokens ('\x7b' :: '\x7d' :: rest) = _
    rw [tokens_openObject, tokens_closeObject]
    rfl
  | .object (.cons key v tail), level, rest, h, after => by
    simp only [prettyAt, spell, List.cons_append, List.append_assoc]
    rw [tokens_openObject,
      tokens_prettyMembers (.cons key v tail) (level + 1) _ h (afterValue_newline level _),
      tokens_newline, List.nil_append, tokens_closeObject]
    rfl

theorem tokens_prettyItems : ∀ (is : Items) (level : Nat) (rest : Text), is.Whole →
    AfterValue rest → tokens (prettyItems level is ++ rest) = spellItems is ++ tokens rest
  | .close, _, rest, _, _ => rfl
  | .cons head .close, level, rest, h, after => by
    rw [prettyItems, spellItems, List.append_assoc, tokens_newline,
      tokens_prettyAt head level rest h.1 after]
    all_goals simp
  | .cons head (.cons next tail), level, rest, h, after => by
    rw [prettyItems, spellItems]
    simp only [List.append_assoc, List.cons_append]
    rw [tokens_newline, tokens_prettyAt head level _ h.1 (afterValue_comma _), tokens_comma,
      tokens_prettyItems (.cons next tail) level rest h.2 after]

theorem tokens_prettyMembers : ∀ (ms : Members) (level : Nat) (rest : Text), ms.Whole →
    AfterValue rest → tokens (prettyMembers level ms ++ rest) = spellMembers ms ++ tokens rest
  | .close, _, rest, _, _ => rfl
  | .cons key v .close, level, rest, ⟨⟨t, ht⟩, h, _⟩, after => by
    subst ht
    rw [prettyMembers, spellMembers]
    · simp only [List.append_assoc, List.cons_append]
      rw [tokens_newline, tokens_string (writtenAs_print t), tokens_colon_space,
        tokens_prettyAt v level rest h after]
    all_goals simp
  | .cons key v (.cons next w tail), level, rest, ⟨⟨t, ht⟩, h, hs⟩, after => by
    subst ht
    rw [prettyMembers, spellMembers]
    simp only [List.append_assoc, List.cons_append]
    rw [tokens_newline, tokens_string (writtenAs_print t), tokens_colon_space,
      tokens_prettyAt v level _ h (afterValue_comma _), tokens_comma,
      tokens_prettyMembers (.cons next w tail) level rest hs after]

end

/-! ### Trees -/

theorem spell_eq_cons {j : Json} (h : j.Flawless) :
    ∃ t ts, spell j = t :: ts ∧ t ≠ .closeArray := by
  cases j with
  | array is => exact ⟨_, _, rfl, by simp⟩
  | object ms => exact ⟨_, _, rfl, by simp⟩
  | cutNumber => exact h.elim
  | garbled f => exact h.elim
  | missing => exact h.elim
  | _ => exact ⟨_, _, rfl, by simp⟩

theorem spellItems_eq_cons {head : Json} (h : head.Flawless) (tail : Items) :
    ∃ t ts, spellItems (.cons head tail) = t :: ts ∧ t ≠ .closeArray := by
  obtain ⟨t, ts, e, ne⟩ := spell_eq_cons h
  cases tail <;> exact ⟨t, _, by simp [spellItems, e]; rfl, ne⟩

theorem spellMembers_eq_cons (key : Literal) (v : Json) (tail : Members) :
    spellMembers (.cons key v tail) =
      .string key :: (spellMembers (.cons key v tail)).tail := by
  cases tail <;> rfl

theorem value_openArray {t : Token} (ne : t ≠ .closeArray) (fuel : Nat) (ts : List Token) :
    value (fuel + 1) (.openArray :: t :: ts) =
      (.array (items fuel (t :: ts)).1, (items fuel (t :: ts)).2) := by
  rw [value]
  · intro rest e
    exact ne (List.cons.inj e).1
  · simp

mutual

/-- The tokens of a tree are read as the tree. -/
theorem value_spell : ∀ (j : Json) (fuel : Nat) (ts : List Token), j.Flawless →
    2 * (spell j).length ≤ fuel → value fuel (spell j ++ ts) = (j, ts)
  | .null, fuel + 1, ts, _, _ => rfl
  | .bool b, fuel + 1, ts, _, _ => rfl
  | .number n, fuel + 1, ts, _, _ => rfl
  | .string s, fuel + 1, ts, _, _ => rfl
  | .array .close, fuel + 1, ts, _, _ => rfl
  | .object .close, fuel + 1, ts, _, _ => rfl
  | .array (.cons head tail), fuel + 1, ts, h, enough => by
    obtain ⟨t, rest, e, ne⟩ := spellItems_eq_cons h.1 tail
    have read := items_spellItems (.cons head tail) fuel ts h (by simp)
      (by simp [spell] at enough; omega)
    simp only [spell, e, List.cons_append, List.append_assoc, List.nil_append] at read ⊢
    rw [value_openArray ne, read]
  | .object (.cons key v tail), fuel + 1, ts, h, enough => by
    have read := members_spellMembers key v tail fuel ts h
      (by simp [spell] at enough; omega)
    rw [spell, spellMembers_eq_cons]
    simp only [List.cons_append, List.append_assoc, List.nil_append]
    rw [value, read]

theorem items_spellItems : ∀ (is : Items) (fuel : Nat) (ts : List Token),
    is.Flawless → is ≠ .close → 2 * (spellItems is).length + 1 ≤ fuel →
      items fuel (spellItems is ++ .closeArray :: ts) = (is, ts)
  | .cons head .close, fuel + 1, ts, h, _, enough => by
    rw [spellItems] at enough ⊢
    · rw [items, value_spell head fuel _ h.1 (by omega)]
    all_goals simp
  | .cons head (.cons next tail), fuel + 1, ts, h, _, enough => by
    rw [spellItems, List.length_append, List.length_cons] at enough
    rw [spellItems, List.append_assoc, items, value_spell head fuel _ h.1 (by omega)]
    simp only [List.cons_append]
    rw [items_spellItems (.cons next tail) fuel ts h.2 (by simp) (by omega)]

theorem members_spellMembers : ∀ (key : Literal) (v : Json) (tail : Members) (fuel : Nat)
    (ts : List Token), (Members.cons key v tail).Flawless →
      2 * (spellMembers (.cons key v tail)).length + 1 ≤ fuel →
        members fuel key ((spellMembers (.cons key v tail)).tail ++ .closeObject :: ts) =
          (.cons key v tail, ts)
  | key, v, .close, fuel + 1, ts, h, enough => by
    rw [spellMembers] at enough ⊢
    · simp only [List.tail_cons, List.cons_append, List.length_cons] at enough ⊢
      rw [members, value_spell v fuel _ h.2.1 (by omega)]
    all_goals simp
  | key, v, .cons next w tail, fuel + 1, ts, h, enough => by
    rw [spellMembers] at enough ⊢
    simp only [List.tail_cons, List.cons_append, List.append_assoc, List.length_cons,
      List.length_append] at enough ⊢
    rw [members, value_spell v fuel _ h.2.1 (by omega), spellMembers_eq_cons]
    dsimp only [List.cons_append]
    rw [members_spellMembers next w tail fuel ts h.2.2 (by omega)]

end

/-- A tree without a flaw is read back from its text, which it takes up to the end. -/
theorem parse_pretty {j : Json} (h : j.Whole) : parse (pretty j) = (j, true) := by
  have spelled : tokens (pretty j) = spell j := by
    have := tokens_prettyAt j 0 [] h (by simp [AfterValue])
    rwa [List.append_nil, tokens, List.append_nil] at this
  have read := value_spell j (2 * (spell j).length + 1) [] h.flawless (by omega)
  rw [List.append_nil] at read
  rw [parse, spelled, read]
  rfl

end Json
end BlockCanvas
