import BlockCanvas.Proofs.Text.Parts

/-!
# The places where a text stands

`occurrences` lists every place of a text in another and nothing else (`mem_occurrences_iff`), from
left to right (`pairwise_occurrences`).  So a scan that takes the first place where a test gives a
result takes the leftmost of them: `findSome?_occurrences_eq_some_iff`.  A text that cannot overlap
itself is cut at its last place if it does not stand behind the cut: `splitLast_eq_some_iff`.
-/

namespace BlockCanvas
namespace Text

variable {sep s a b : Text} {c : Char}

theorem prefix_of_append_eq {p : Text × Text} (h : s = p.1 ++ sep ++ p.2) (first : p.1 = []) :
    sep.isPrefixOf? s = some p.2 := by
  rw [h, first, List.nil_append, isPrefixOf?_self_append]

theorem mem_occurrences_iff {p : Text × Text} :
    p ∈ occurrences sep s ↔ s = p.1 ++ sep ++ p.2 := by
  refine ⟨occurrences_append, fun whole => ?_⟩
  induction s generalizing p with
  | nil =>
    obtain ⟨a, b⟩ := p
    simp only [List.nil_eq, List.append_eq_nil_iff] at whole
    obtain ⟨⟨rfl, rfl⟩, rfl⟩ := whole
    simp [occurrences]
  | cons d s ih =>
    obtain ⟨a, b⟩ := p
    cases a with
    | nil =>
      rw [occurrences, prefix_of_append_eq whole rfl]
      exact List.mem_cons_self
    | cons e a =>
      simp only [List.cons_append, List.cons.injEq] at whole
      obtain ⟨rfl, whole⟩ := whole
      have later : (d :: a, b) ∈ (occurrences sep s).map fun p => (d :: p.1, p.2) :=
        List.mem_map.2 ⟨(a, b), ih whole, rfl⟩
      rw [occurrences]
      split
      · exact List.mem_cons_of_mem _ later
      · exact later

theorem pairwise_occurrences (sep s : Text) :
    (occurrences sep s).Pairwise fun p q => p.1.length < q.1.length := by
  induction s with
  | nil =>
    rw [occurrences]
    split <;> simp
  | cons d s ih =>
    have later : ((occurrences sep s).map fun p => (d :: p.1, p.2)).Pairwise
        fun p q => p.1.length < q.1.length := by
      rw [List.pairwise_map]
      exact ih.imp fun h => Nat.succ_lt_succ h
    rw [occurrences]
    split
    · refine List.pairwise_cons.2 ⟨?_, later⟩
      rintro q hq
      obtain ⟨p, -, rfl⟩ := List.mem_map.1 hq
      exact Nat.succ_pos _
    · exact later

section

variable {α : Type} {f : Text × Text → Option α} {x : α}

theorem isSome_findSome?_occurrences_iff :
    ((occurrences sep s).findSome? f).isSome ↔ ∃ a b, s = a ++ sep ++ b ∧ (f (a, b)).isSome := by
  simp only [List.findSome?_isSome_iff, mem_occurrences_iff, Prod.exists]

/-- A scan stops at the leftmost place where the test gives a result. -/
theorem findSome?_occurrences_eq_some_iff :
    (occurrences sep s).findSome? f = some x ↔ ∃ a b, s = a ++ sep ++ b ∧ f (a, b) = some x ∧
      ∀ a' b', s = a' ++ sep ++ b' → (f (a', b')).isSome → a.length ≤ a'.length := by
  constructor
  · intro h
    obtain ⟨before, p, after, all, here, none⟩ := List.findSome?_eq_some_iff.1 h
    have order := pairwise_occurrences sep s
    rw [all, List.pairwise_append] at order
    refine ⟨p.1, p.2, mem_occurrences_iff.1 (by simp [all]), here, ?_⟩
    intro a' b' whole found
    have member : (a', b') ∈ before ++ p :: after := all ▸ mem_occurrences_iff.2 whole
    rcases List.mem_append.1 member with earlier | later
    · rw [none _ earlier] at found
      cases found
    · rcases List.mem_cons.1 later with rfl | later
      · exact Nat.le_refl _
      · exact Nat.le_of_lt ((List.pairwise_cons.1 order.2.1).1 _ later)
  · rintro ⟨a, b, whole, here, leftmost⟩
    have member : (a, b) ∈ occurrences sep s := mem_occurrences_iff.2 whole
    obtain ⟨before, after, all⟩ := List.append_of_mem member
    refine List.findSome?_eq_some_iff.2 ⟨before, (a, b), after, all, here, ?_⟩
    intro p earlier
    have order := pairwise_occurrences sep s
    rw [all, List.pairwise_append] at order
    have less := order.2.2 p earlier (a, b) List.mem_cons_self
    have place := mem_occurrences_iff.1 (all ▸ List.mem_append_left _ earlier)
    rw [← Option.not_isSome_iff_eq_none]
    intro found
    exact absurd less (Nat.not_lt.2 (leftmost p.1 p.2 place found))

end

/-! ### The last place -/

theorem splitLast_eq_none_iff : splitLast sep s = none ↔ ¬ sep <:+: s := by
  induction s with
  | nil => simp [splitLast]
  | cons d s ih =>
    rw [splitLast, List.infix_cons_iff, not_or, ← ih, ← isPrefixOf?_eq_none_iff]
    cases splitLast sep s <;> simp

/-- A text that starts with a character which it has only there does not stand across the end of
what follows that character. -/
theorem infix_append_of_notMem {t : Text} (h : c ∉ t) : c :: t <:+: t ++ b ↔ c :: t <:+: b := by
  refine ⟨fun found => ?_, List.infix_append_of_infix_right⟩
  rcases List.infix_append_iff_ne_nil.1 found with inside | behind | ⟨u, v, hu, -, whole, start, -⟩
  · exact absurd (inside.subset List.mem_cons_self) h
  · exact behind
  · cases u with
    | nil => exact absurd rfl hu
    | cons d u =>
      obtain rfl : c = d := (List.cons.inj whole).1
      exact absurd (start.subset List.mem_cons_self) h

/-- The last place of a text that starts with a character which it has only there is the one behind
which it does not stand. -/
theorem splitLast_eq_some_iff {t : Text} (h : c ∉ t) :
    splitLast (c :: t) s = some (a, b) ↔ s = a ++ (c :: t) ++ b ∧ ¬ c :: t <:+: b := by
  constructor
  · intro cut
    refine ⟨splitLast_append cut, ?_⟩
    induction s generalizing a with
    | nil => simp [splitLast] at cut
    | cons d s ih =>
      rw [splitLast] at cut
      split at cut
      · next p later =>
        cases cut
        exact ih later
      · next none =>
        obtain ⟨rest, here, e⟩ := Option.map_eq_some_iff.1 cut
        cases e
        obtain ⟨-, rfl⟩ := List.cons.inj (isPrefixOf?_append here)
        rw [splitLast_eq_none_iff] at none
        exact fun found => none (List.infix_append_of_infix_right found)
  · rintro ⟨rfl, last⟩
    induction a with
    | nil =>
      have none : splitLast (c :: t) (t ++ b) = none :=
        splitLast_eq_none_iff.2 fun found => last ((infix_append_of_notMem h).1 found)
      have here := isPrefixOf?_self_append (c :: t) b
      rw [List.cons_append] at here
      rw [List.nil_append, List.cons_append, splitLast, none]
      dsimp only
      rw [here, Option.map_some]
    | cons d a ih =>
      rw [List.cons_append, List.cons_append, splitLast, ih]

end Text
end BlockCanvas
