import Mathlib.Data.List.Infix
import BlockCanvas.Text.Basic

/-!
# Where a text stands in another

A search finds the leftmost place: what stands before it has no part in the match.  So a cut passes
over characters that the text it looks for cannot start with (`splitOnce_append`), and a text
without a given character stands on one side of each place where the character is
(`infix_append_cons_iff`).
-/

namespace BlockCanvas
namespace Text

variable {sep s t a b : Text} {c : Char}

/-! ### Characters at the head -/

/-- What is taken from the head of a text is the longest part of it whose characters all belong. -/
theorem span_eq_iff {p : Char → Bool} : (s.takeWhile p, s.dropWhile p) = (a, b) ↔
    s = a ++ b ∧ (∀ c ∈ a, p c) ∧ ∀ c ∈ b.head?, ¬ p c := by
  constructor
  · rintro ⟨⟩
    refine ⟨List.takeWhile_append_dropWhile.symm, List.all_eq_true.1 List.all_takeWhile, ?_⟩
    intro c hc
    have stop := List.head?_dropWhile_not p s
    rw [Option.mem_def.1 hc] at stop
    simpa using stop
  · rintro ⟨rfl, all, stop⟩
    rw [List.takeWhile_append_of_pos all, List.dropWhile_append_of_pos all]
    cases b with
    | nil => simp
    | cons c b =>
      have here : ¬ p c := stop c rfl
      simp [here]

/-! ### Cuts -/

theorem isPrefixOf?_self_append (sep s : Text) : sep.isPrefixOf? (sep ++ s) = some s :=
  List.isPrefixOf?_eq_some_iff_append_eq.2 rfl

theorem isPrefixOf?_eq_none_iff : sep.isPrefixOf? s = none ↔ ¬ sep <+: s := by
  rw [← List.isPrefixOf_iff_prefix, ← List.isSome_isPrefixOf?_eq_isPrefixOf,
    Option.isSome_iff_ne_none, not_not]

theorem between?_append (first s last : Text) :
    between? first last (first ++ s ++ last) = some s := by
  rw [between?, List.append_assoc, isPrefixOf?_self_append]
  dsimp only
  rw [List.reverse_append, isPrefixOf?_self_append, Option.map_some, List.reverse_reverse]

theorem splitOnce_self_append (hs : sep ≠ []) (s : Text) :
    splitOnce sep (sep ++ s) = some ([], s) := by
  obtain ⟨c, sep, rfl⟩ := List.exists_cons_of_ne_nil hs
  rw [List.cons_append, splitOnce, ← List.cons_append, isPrefixOf?_self_append]

/-- A cut passes over a character at which the text it looks for does not start. -/
theorem splitOnce_cons_of_not_start (h : ¬ sep <+: c :: s) :
    splitOnce sep (c :: s) = (splitOnce sep s).map fun p => (c :: p.1, p.2) := by
  rw [splitOnce, isPrefixOf?_eq_none_iff.2 h]

theorem splitOnce_append_of_notMem (h : c ∉ a) (s : Text) :
    splitOnce (c :: sep) (a ++ s) =
      (splitOnce (c :: sep) s).map fun p => (a ++ p.1, p.2) := by
  induction a with
  | nil => simp
  | cons d a ih =>
    have here : ¬ c :: sep <+: d :: (a ++ s) := by
      intro found
      exact List.ne_of_not_mem_cons h (List.cons_prefix_cons.1 found).1
    rw [List.cons_append, splitOnce_cons_of_not_start here, ih (List.not_mem_of_not_mem_cons h),
      Option.map_map]
    rfl

theorem splitOnce_of_notMem (h : c ∉ s) : splitOnce (c :: sep) s = none := by
  have passed : splitOnce (c :: sep) (s ++ []) = _ := splitOnce_append_of_notMem h []
  rwa [List.append_nil] at passed

/-- A cut at one character is made at the first place where it stands. -/
theorem splitOnce_singleton (h : c ∉ a) (s : Text) :
    splitOnce [c] (a ++ c :: s) = some (a, s) := by
  rw [splitOnce_append_of_notMem h]
  have here := splitOnce_self_append (List.cons_ne_nil c []) s
  rw [List.singleton_append] at here
  rw [here, Option.map_some, List.append_nil]

theorem splitOnce_eq_none_iff : splitOnce sep s = none ↔ ¬ sep <:+: s := by
  induction s with
  | nil => simp [splitOnce]
  | cons c s ih =>
    by_cases here : sep <+: c :: s
    · obtain ⟨rest, hr⟩ := here
      rw [splitOnce, List.isPrefixOf?_eq_some_iff_append_eq.2 hr]
      simp only [reduceCtorEq, false_iff, not_not]
      exact (List.prefix_append sep rest).isInfix.trans (hr ▸ List.infix_rfl)
    · rw [splitOnce_cons_of_not_start here, Option.map_eq_none_iff, ih, List.infix_cons_iff]
      simp [here]

/-- Of two places of a character one is the first: the other is the same, or stands after it. -/
theorem eq_or_append_cons_of_notMem (first : c ∉ a) (h : b ++ c :: t = a ++ c :: s) :
    (b = a ∧ t = s) ∨ ∃ between, b = a ++ c :: between ∧ s = between ++ c :: t := by
  rcases List.append_eq_append_iff.1 h with ⟨u, rfl, hu⟩ | ⟨u, rfl, hu⟩
  · cases u with
    | nil => exact .inl ⟨(List.append_nil b).symm, (List.cons.inj hu).2⟩
    | cons d u =>
      obtain ⟨rfl, -⟩ := List.cons.inj hu
      exact absurd (List.mem_append_right b List.mem_cons_self) first
  · cases u with
    | nil => exact .inl ⟨List.append_nil a, (List.cons.inj hu).2.symm⟩
    | cons d u =>
      obtain ⟨rfl, later⟩ := List.cons.inj hu
      exact .inr ⟨u, rfl, later⟩

theorem splitOnce_singleton_eq_some_iff :
    splitOnce [c] s = some (a, b) ↔ c ∉ a ∧ s = a ++ c :: b := by
  constructor
  · intro h
    have whole : s = a ++ c :: b := by
      rw [splitOnce_append h, List.append_assoc]
      rfl
    refine ⟨fun inside => ?_, whole⟩
    obtain ⟨u, v, rfl, free⟩ := List.eq_append_cons_of_mem inside
    rw [whole, List.append_assoc, List.cons_append, splitOnce_singleton free] at h
    have lengths := congrArg (List.length ∘ Prod.fst) (Option.some.inj h)
    simp at lengths
  · rintro ⟨free, rfl⟩
    exact splitOnce_singleton free b

theorem contains_iff : contains sep s = true ↔ sep <:+: s := by
  rw [contains, Option.isSome_iff_ne_none, ne_eq, splitOnce_eq_none_iff, not_not]

theorem contains_eq_false_iff : contains sep s = false ↔ ¬ sep <:+: s := by
  rw [Bool.eq_false_iff, ne_eq, contains_iff]

theorem splitOnce_singleton_eq_none_iff : splitOnce [c] s = none ↔ c ∉ s := by
  rw [splitOnce_eq_none_iff, List.singleton_infix_iff]

/-- A prefix of two texts is one of the first, or the first and a prefix of the second. -/
theorem prefix_append_cases (h : s <+: a ++ b) : s <+: a ∨ ∃ t, s = a ++ t ∧ t <+: b := by
  rcases List.prefix_or_prefix_of_prefix h (List.prefix_append a b) with inside | ⟨t, rfl⟩
  · exact .inl inside
  · exact .inr ⟨t, rfl, (List.prefix_append_right_inj a).1 h⟩

theorem concat_prefix_append_cases (h : s ++ [c] <+: a ++ b) :
    s ++ [c] <+: a ∨ ∃ t, s = a ++ t ∧ t ++ [c] <+: b := by
  rcases List.prefix_or_prefix_of_prefix h (List.prefix_append a b) with inside | whole
  · exact .inl inside
  · rcases List.prefix_concat_iff.1 whole with rfl | ⟨t, rfl⟩
    · exact .inl List.prefix_rfl
    · rw [List.append_assoc] at h
      exact .inr ⟨t, rfl, (List.prefix_append_right_inj a).1 h⟩

theorem occurrences_append {p : Text × Text} (h : p ∈ occurrences sep s) :
    s = p.1 ++ sep ++ p.2 := by
  induction s generalizing p with
  | nil =>
    rw [occurrences] at h
    split at h
    case isTrue e =>
      rw [List.mem_singleton.1 h, e]
      rfl
    case isFalse => cases h
  | cons c s ih =>
    have later {p : Text × Text} (h : p ∈ (occurrences sep s).map fun p => (c :: p.1, p.2)) :
        c :: s = p.1 ++ sep ++ p.2 := by
      obtain ⟨q, hq, rfl⟩ := List.mem_map.1 h
      rw [List.cons_append, List.cons_append, ← ih hq]
    rw [occurrences] at h
    split at h
    · next hp =>
      rcases List.mem_cons.1 h with rfl | h
      · exact isPrefixOf?_append hp
      · exact later h
    · exact later h

/-- The first place where a text stands is the one at which it is cut. -/
theorem head?_occurrences (sep s : Text) : (occurrences sep s).head? = splitOnce sep s := by
  induction s with
  | nil =>
    rw [occurrences, splitOnce]
    split <;> rfl
  | cons c s ih =>
    rw [occurrences, splitOnce]
    cases sep.isPrefixOf? (c :: s) with
    | some rest => rfl
    | none => simp [ih]

theorem findSome?_occurrences {α : Type} {f : Text × Text → Option α} {p : Text × Text} {x : α}
    (first : splitOnce sep s = some p) (h : f p = some x) :
    (occurrences sep s).findSome? f = some x := by
  rw [← head?_occurrences] at first
  obtain ⟨later, all⟩ := List.head?_eq_some_iff.1 first
  rw [all, List.findSome?_cons, h]

theorem splitLast_eq_none (h : s.length < sep.length) : splitLast sep s = none := by
  induction s with
  | nil => simp [splitLast, List.ne_nil_of_length_pos h]
  | cons c s ih =>
    rw [splitLast, ih (Nat.lt_of_succ_lt h), isPrefixOf?_eq_none_iff.2, Option.map_none]
    intro found
    exact absurd found.length_le (Nat.not_le.2 h)

theorem splitLast_append_self (hs : sep ≠ []) (s : Text) :
    splitLast sep (s ++ sep) = some (s, []) := by
  induction s with
  | nil =>
    obtain ⟨c, sep, rfl⟩ := List.exists_cons_of_ne_nil hs
    have whole := isPrefixOf?_self_append (c :: sep) []
    rw [List.append_nil] at whole
    rw [List.nil_append, splitLast, splitLast_eq_none (Nat.lt_succ_self _), whole, Option.map_some]
  | cons c s ih => rw [List.cons_append, splitLast, ih]

end Text
end BlockCanvas
