import BlockCanvas.Proofs.Block.Entries
import BlockCanvas.Proofs.Block.Fragments

/-!
# Heights as numbers

As numbers, the heights do not decrease from one block of a program to the next.  The order of the
program is finer than that: it puts `-0` above `0`, also where the block at `0` was placed earlier.

Main statement: `synthesize_entries`.
-/

namespace BlockCanvas

namespace Binary64

variable {x y : Binary64}

/-- The total order keeps the numeric order. -/
theorem lt_or_eq_of_rank_le (hx : x.isNaN = false) (hy : y.isNaN = false) (h : x.rank ≤ y.rank) :
    x.lt y ∨ x.eq y := by
  simp only [lt, eq, hx, hy, Bool.not_false, Bool.true_and, decide_eq_true_eq, beq_iff_eq]
  suffices x.key ≤ y.key by omega
  rcases x with ⟨_ | _, c, _⟩ <;> rcases y with ⟨_ | _, d, _⟩ <;>
    simp only [rank, key, if_true, Bool.false_eq_true, if_false] at h ⊢ <;> omega

/-- Only the zeros are equal as numbers and have different places in the total order. -/
theorem eq_zero_of_eq_of_rank_lt (same : x.eq y) (h : x.rank < y.rank) :
    x = zero true ∧ y = zero false := by
  simp only [eq, Bool.and_eq_true, beq_iff_eq] at same
  replace same := same.2
  rcases x with ⟨_ | _, c, _⟩ <;> rcases y with ⟨_ | _, d, _⟩ <;>
    simp only [rank, key, if_true, Bool.false_eq_true, if_false] at same h <;>
    simp only [zero, mk.injEq, Bool.false_eq_true, true_and, false_and] <;> omega

end Binary64

namespace Program

variable {blocks : List Block} {a b : Block × Nat}

/-- As numbers, the heights in a program do not decrease, and those of two blocks are equal if they
are at one height, or at `-0` and `0`. -/
theorem Above.numeric (h : Above a b) (ha : a.1.y.isNaN = false) (hb : b.1.y.isNaN = false) :
    a.1.y.lt b.1.y ∨ a.1.y.eq b.1.y ∧ (a.2 < b.2 ∨ a.1.y = .zero true ∧ b.1.y = .zero false) := by
  rcases Binary64.lt_or_eq_of_rank_le ha hb h.rank_le with lt | same
  · exact .inl lt
  · rcases h with higher | ⟨-, earlier⟩
    · exact .inr ⟨same, .inr (Binary64.eq_zero_of_eq_of_rank_lt same higher)⟩
    · exact .inr ⟨same, .inl earlier⟩

theorem pairwise_iff_of_asymm {α : Type} {R S : α → α → Prop} {l : List α}
    (asymm : ∀ {a b}, R a b → ¬ R b a) (sorted : l.Pairwise R) :
    l.Pairwise S ↔ ∀ a ∈ l, ∀ b ∈ l, R a b → S a b := by
  refine ⟨fun h => ?_, fun h => sorted.imp_of_mem fun ha hb => h _ ha _ hb⟩
  induction l with
  | nil => exact fun _ mem => absurd mem List.not_mem_nil
  | cons c l ih =>
    rw [List.pairwise_cons] at sorted h
    intro a ha b hb before
    rcases List.mem_cons.1 ha with rfl | ha' <;> rcases List.mem_cons.1 hb with rfl | hb'
    · exact absurd before (asymm before)
    · exact h.1 b hb'
    · exact absurd (sorted.1 a ha') (asymm before)
    · exact ih sorted.2 h.2 a ha' b hb' before

theorem eq_of_number_eq (ha : a ∈ blocks.zipIdx) (hb : b ∈ blocks.zipIdx) (same : a.2 = b.2) :
    a.1 = b.1 := by
  rw [List.mem_zipIdx_iff_getElem?] at ha hb
  rw [same, hb] at ha
  exact (Option.some.inj ha).symm

/-- Blocks at heights that are equal as numbers keep their order exactly if no block at `0` was
placed before one at `-0`. -/
theorem stable_entries_iff (blocks : List Block) :
    ((entries blocks).Pairwise fun a b => a.1.y.eq b.1.y → a.2 < b.2) ↔
      blocks.Pairwise fun a b => ¬ (a.y = .zero false ∧ b.y = .zero true) := by
  conv_rhs => rw [← List.zipIdx_map_fst 0 blocks, List.pairwise_map]
  rw [pairwise_iff_of_asymm Above.asymm (sorted_entries blocks),
    pairwise_iff_of_asymm Nat.lt_asymm (placed_zipIdx blocks)]
  simp only [(perm_entries blocks).mem_iff]
  constructor
  · -- the later of the two, at `-0`, comes first
    rintro h a ha b hb earlier ⟨zero, negative⟩
    have above : Above b a := by
      refine .inl ?_
      rw [zero, negative]
      decide
    have same : b.1.y.eq a.1.y := by
      rw [zero, negative]
      decide
    exact Nat.lt_asymm earlier (h b hb a ha above same)
  · rintro h a ha b hb (higher | ⟨-, earlier⟩) same
    · obtain ⟨negative, zero⟩ := Binary64.eq_zero_of_eq_of_rank_lt same higher
      have ne : a.2 ≠ b.2 := fun number => by
        rw [eq_of_number_eq ha hb number, zero] at negative
        cases negative
      exact Nat.lt_of_not_le fun le =>
        h b hb a ha (Nat.lt_of_le_of_ne le ne.symm) ⟨zero, negative⟩
    · exact earlier

/-- A program is made of the fragments of all blocks, each once.  As numbers, the heights of the
blocks do not decrease; blocks at one height keep their order, and those at `-0` come before those
at `0`.  So blocks whose heights are equal as numbers keep their order exactly if no block at `0`
was placed before one at `-0`. -/
theorem synthesize_entries (nonempty : blocks ≠ []) (numbers : ∀ b ∈ blocks, b.y.isNaN = false) :
    synthesize blocks = "\n\n".toList.intercalate ((entries blocks).map fun e => e.1.render) ∧
      (entries blocks).Perm blocks.zipIdx ∧
      ((entries blocks).Pairwise fun a b => a.1.y.lt b.1.y ∨
        a.1.y.eq b.1.y ∧ (a.2 < b.2 ∨ a.1.y = .zero true ∧ b.1.y = .zero false)) ∧
      (((entries blocks).Pairwise fun a b => a.1.y.eq b.1.y → a.2 < b.2) ↔
        blocks.Pairwise fun a b => ¬ (a.y = .zero false ∧ b.y = .zero true)) := by
  have number {a : Block × Nat} (mem : a ∈ entries blocks) : a.1.y.isNaN = false :=
    numbers a.1 (List.fst_mem_of_mem_zipIdx ((perm_entries blocks).mem_iff.1 mem))
  have downwards := (sorted_entries blocks).imp_of_mem fun ha hb above =>
    above.numeric (number ha) (number hb)
  exact ⟨synthesize_eq_entries nonempty, perm_entries blocks, downwards, stable_entries_iff blocks⟩

/-- A remark at `0`, and one at `-0` that was placed after it. -/
def zeroRows : List Block := [remark ['A'], { remark ['B'] with y := .zero true }]

theorem synthesize_entries_zeroRows :
    zeroRows ≠ [] ∧ (∀ b ∈ zeroRows, b.y.isNaN = false) ∧
      (entries zeroRows).Perm zeroRows.zipIdx ∧
      ¬ (entries zeroRows).Pairwise fun a b => a.1.y.eq b.1.y → a.2 < b.2 := by
  have nonempty : zeroRows ≠ [] := List.cons_ne_nil _ _
  have numbers : ∀ b ∈ zeroRows, b.y.isNaN = false := by decide
  obtain ⟨-, perm, -, stable⟩ := synthesize_entries nonempty numbers
  exact ⟨nonempty, numbers, perm, fun h => absurd (stable.1 h) (by decide)⟩

/-- Two blocks at zero heights are not in the order in which they were placed. -/
theorem not_synthesize_numeric :
    ¬ ∀ blocks : List Block, blocks ≠ [] → (∀ b ∈ blocks, b.y.isNaN = false) →
      ∃ rows : List (Block × Nat),
        synthesize blocks = "\n\n".toList.intercalate (rows.map fun e => e.1.render) ∧
          rows.Perm blocks.zipIdx ∧
          rows.Pairwise fun a b =>
            (a.1.y.lt b.1.y ∨ a.1.y.eq b.1.y) ∧ (a.1.y.eq b.1.y → a.2 < b.2) := by
  intro h
  have nonempty : zeroRows ≠ [] := List.cons_ne_nil _ _
  obtain ⟨rows, text, perm, order⟩ := h zeroRows nonempty (by decide)
  have same : ∀ a ∈ zeroRows.zipIdx, ∀ b ∈ zeroRows.zipIdx, a.1.y.eq b.1.y := by decide
  have placed : rows.Pairwise fun a b => a.2 < b.2 :=
    order.imp_of_mem fun ha hb both => both.2 (same _ (perm.mem_iff.1 ha) _ (perm.mem_iff.1 hb))
  obtain rfl : rows = zeroRows.zipIdx := eq_of_placed placed (placed_zipIdx zeroRows) perm
  have swapped : zeroRows.zipIdx.reverse = entries zeroRows :=
    eq_entries (List.pairwise_pair.2 (.inl (by decide))) (List.reverse_perm _)
  rw [synthesize_eq_entries nonempty, ← swapped] at text
  exact absurd text (by decide)

end Program
end BlockCanvas
