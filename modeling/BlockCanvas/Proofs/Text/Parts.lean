import BlockCanvas.Program.Expression
import BlockCanvas.Program.Shape
import BlockCanvas.Proofs.Text.Search

/-!
# Parts of texts

Whatever a search, a cut or a trim takes out of a text stands in that text, and so has each property
that all of its parts have: `Text.Allows`.
-/

namespace BlockCanvas
namespace Text

variable {sep s a b : Text}

/-- The two sides of a cut stand in the whole. -/
theorem infix_sides (a sep b : Text) : a <:+: a ++ sep ++ b ∧ b <:+: a ++ sep ++ b :=
  ⟨⟨[], sep ++ b, by simp⟩, (List.suffix_append _ _).isInfix⟩

theorem infix_of_splitOnce (h : splitOnce sep s = some (a, b)) : a <:+: s ∧ b <:+: s := by
  rw [splitOnce_append h]
  exact infix_sides a sep b

/-- A cut at the last place loses nothing either. -/
theorem splitLast_append (h : splitLast sep s = some (a, b)) : s = a ++ sep ++ b := by
  induction s generalizing a with
  | nil =>
    rw [splitLast] at h
    split at h
    case isTrue e =>
      cases h
      rw [e]
      rfl
    case isFalse => cases h
  | cons c s ih =>
    rw [splitLast] at h
    split at h
    case h_1 p later =>
      cases h
      rw [ih later]
      rfl
    case h_2 =>
      obtain ⟨rest, here, e⟩ := Option.map_eq_some_iff.1 h
      cases e
      exact isPrefixOf?_append here

theorem infix_of_splitLast (h : splitLast sep s = some (a, b)) : a <:+: s ∧ b <:+: s := by
  rw [splitLast_append h]
  exact infix_sides a sep b

theorem infix_of_mem_occurrences (h : (a, b) ∈ occurrences sep s) : a <:+: s ∧ b <:+: s := by
  rw [occurrences_append h]
  exact infix_sides a sep b

theorem eq_of_between? {first last : Text} (h : between? first last s = some a) :
    s = first ++ a ++ last := by
  rw [between?] at h
  split at h
  case h_1 => cases h
  case h_2 rest start =>
    obtain ⟨inner, stop, rfl⟩ := Option.map_eq_some_iff.1 h
    have ends : rest = inner.reverse ++ last := by
      rw [← List.reverse_inj, isPrefixOf?_append stop]
      simp
    rw [isPrefixOf?_append start, ends, List.append_assoc]

theorem infix_of_between? {first last : Text} (h : between? first last s = some a) : a <:+: s :=
  ⟨first, last, (eq_of_between? h).symm⟩

theorem trimEnd_isPrefix (s : Text) : trimEnd s <+: s := by
  rw [trimEnd, ← List.reverse_suffix, List.reverse_reverse]
  exact List.dropWhile_suffix _

theorem trim_infix (s : Text) : trim s <:+: s :=
  (trimEnd_isPrefix _).isInfix.trans (List.dropWhile_suffix _).isInfix

/-- The first piece stands at the start of the text, and the others after it. -/
theorem exists_splitChar (sep : Char) (s : Text) : ∃ first rest,
    splitChar sep s = first :: rest ∧ first <+: s ∧ ∀ piece ∈ rest, piece <:+: s := by
  induction s with
  | nil => exact ⟨[], [], rfl, List.prefix_rfl, fun _ h => nomatch h⟩
  | cons c s ih =>
    obtain ⟨first, rest, pieces, start, later⟩ := ih
    rw [splitChar, pieces]
    split
    case isTrue =>
      refine ⟨[], first :: rest, rfl, List.nil_prefix, ?_⟩
      intro piece h
      rcases List.mem_cons.1 h with rfl | h
      · exact List.infix_cons start.isInfix
      · exact List.infix_cons (later piece h)
    case isFalse =>
      exact ⟨c :: first, rest, rfl, List.cons_prefix_cons.2 ⟨rfl, start⟩,
        fun piece h => List.infix_cons (later piece h)⟩

theorem infix_of_mem_splitChar {sep : Char} {piece : Text} (h : piece ∈ splitChar sep s) :
    piece <:+: s := by
  obtain ⟨first, rest, pieces, start, later⟩ := exists_splitChar sep s
  rw [pieces] at h
  rcases List.mem_cons.1 h with rfl | h
  · exact start.isInfix
  · exact later piece h

/-- Every text that stands in `s` has a property. -/
def Allows (P : Text → Prop) (s : Text) : Prop := ∀ part, part <:+: s → P part

theorem Allows.part {P : Text → Prop} {s part : Text} (h : s.Allows P) (inside : part <:+: s) :
    part.Allows P :=
  fun name found => h name (found.trans inside)

end Text

namespace Expression

variable {e left right : Text}

/-- The text between quotes stands in the quoted one. -/
theorem infix_of_unquote? {s : Text} (h : unquote? e = some s) : s <:+: e := by
  have inside {quote : Char} (h : unquoteWith? quote e = some s) : s <:+: e := by
    unfold unquoteWith? at h
    split at h
    · cases h
      exact List.nil_infix
    · exact Text.infix_of_between? h
  unfold unquote? at h
  split at h
  · next double =>
    cases h
    exact inside double
  · exact inside h

/-- A cut at an operator loses nothing but its token. -/
theorem cut?_append {op : Operator} (h : cut? e = some (op, left, right)) :
    e = left ++ op.token ++ right := by
  obtain ⟨o, -, found⟩ := List.exists_of_findSome?_eq_some h
  obtain ⟨⟨l, r⟩, cut, same⟩ := Option.map_eq_some_iff.1 found
  cases same
  exact Text.splitOnce_append cut

theorem infix_of_cut? {op : Operator} (h : cut? e = some (op, left, right)) :
    left <:+: e ∧ right <:+: e := by
  rw [cut?_append h]
  exact Text.infix_sides left op.token right

theorem infix_of_cutCondition? {c : Comparison}
    (h : cutCondition? e = some (c, left, right)) : left <:+: e ∧ right <:+: e := by
  obtain ⟨o, -, found⟩ := List.exists_of_findSome?_eq_some h
  obtain ⟨⟨l, r⟩, cut, same⟩ := Option.map_eq_some_iff.1 found
  cases same
  exact Text.infix_of_splitOnce cut

end Expression

namespace Shape

theorem wordAtEnd_suffix (s : Text) : wordAtEnd s <:+ s := by
  rw [wordAtEnd, ← List.reverse_prefix, List.reverse_reverse]
  exact List.takeWhile_prefix _

/-- The list and the item of an append stand on its line. -/
theorem infix_of_append? {line name item : Text} (h : append? line = some (name, item)) :
    name <:+: line ∧ item <:+: line := by
  obtain ⟨⟨before, after⟩, place, here⟩ := List.exists_of_findSome?_eq_some h
  obtain ⟨inBefore, inAfter⟩ := Text.infix_of_mem_occurrences place
  simp only [appendHere?] at here
  split at here
  · cases here
  · split at here
    case h_2 => cases here
    case h_1 cut =>
      split at here
      · cases here
      · cases here
        exact ⟨(wordAtEnd_suffix before).isInfix.trans inBefore,
          (Text.infix_of_splitLast cut).1.trans inAfter⟩

end Shape
end BlockCanvas
