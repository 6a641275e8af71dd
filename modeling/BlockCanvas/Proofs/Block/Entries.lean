import BlockCanvas.Proofs.Block.Rows

/-!
# Entries

The blocks from top to bottom, each with its number, that is, how many blocks were placed before it.
Numbers tell apart blocks that are equal, and make the order of the program strict (`Above`): what
is in this order is determined by what is in it.

Main statements: `Above.eq_of_perm`, `map_fst_eq_inRows`, `eq_entries`, `map_fst_entries`.
-/

namespace BlockCanvas
namespace Program

variable {blocks : List Block} {rows rows' l : List (Block × Nat)} {a b : Block × Nat}

/-- One block comes before another in the program: it is higher, or it is at the same height and
was placed earlier. -/
def Above (a b : Block × Nat) : Prop :=
  a.1.y.rank < b.1.y.rank ∨ a.1.y = b.1.y ∧ a.2 < b.2

theorem Above.rank_le (h : Above a b) : a.1.y.rank ≤ b.1.y.rank := by
  rcases h with higher | ⟨level, -⟩
  · exact Int.le_of_lt higher
  · exact Int.le_of_eq (congrArg Binary64.rank level)

theorem Above.number_lt (h : Above a b) (level : a.1.y = b.1.y) : a.2 < b.2 := by
  rcases h with higher | ⟨-, earlier⟩
  · rw [level] at higher
    exact absurd higher (Int.lt_irrefl _)
  · exact earlier

theorem Above.asymm (h : Above a b) : ¬ Above b a := fun h' =>
  have level := Binary64.rank_inj.1 (Int.le_antisymm h.rank_le h'.rank_le)
  Nat.lt_asymm (h.number_lt level) (h'.number_lt level.symm)

/-- Only one list of numbered blocks is in the order of the program. -/
theorem Above.eq_of_perm (sorted : rows.Pairwise Above) (sorted' : rows'.Pairwise Above)
    (perm : rows.Perm rows') : rows = rows' :=
  List.Perm.eq_of_pairwise (fun _ _ _ _ h h' => absurd h' h.asymm) sorted sorted' perm

theorem eq_of_placed (placed : rows.Pairwise fun a b => a.2 < b.2)
    (placed' : rows'.Pairwise fun a b => a.2 < b.2) (perm : rows.Perm rows') : rows = rows' :=
  List.Perm.eq_of_pairwise (fun _ _ _ _ h h' => absurd h' (Nat.lt_asymm h)) placed placed' perm

/-- Numbered blocks in the order of the program are the rows of the blocks, also where numbers are
left out. -/
theorem map_fst_eq_inRows (sorted : rows.Pairwise Above) (perm : rows.Perm l)
    (placed : l.Pairwise fun a b => a.2 < b.2) : rows.map Prod.fst = inRows (l.map Prod.fst) := by
  refine TopDown.unique ⟨perm.map _, ?_, fun y => ?_⟩ (topDown_inRows _)
  · exact List.pairwise_map.2 (sorted.imp Above.rank_le)
  · rw [List.filter_map, List.filter_map]
    -- at one height, both lists are in the order of the numbers
    have level : (rows.filter fun a => a.1.y = y).Pairwise fun a b => a.2 < b.2 := by
      rw [List.pairwise_filter]
      refine sorted.imp fun h ha hb => h.number_lt ?_
      rw [of_decide_eq_true ha, of_decide_eq_true hb]
    exact congrArg _ (eq_of_placed level (placed.filter _) (perm.filter _))

/-! ### Numbered blocks -/

/-- The blocks from top to bottom, each with the number of blocks that were placed before it. -/
def entries (blocks : List Block) : List (Block × Nat) :=
  blocks.zipIdx.mergeSort (List.zipIdxLE fun a b => a.y.rank ≤ b.y.rank)

theorem placed_zipIdx (blocks : List Block) : blocks.zipIdx.Pairwise fun a b => a.2 < b.2 := by
  rw [← List.pairwise_map (R := (· < ·)), List.zipIdx_map_snd]
  exact List.pairwise_lt_range'

theorem perm_entries (blocks : List Block) : (entries blocks).Perm blocks.zipIdx :=
  List.mergeSort_perm _ _

theorem number_ne_entries (blocks : List Block) :
    (entries blocks).Pairwise fun a b => a.2 ≠ b.2 :=
  ((placed_zipIdx blocks).imp Nat.ne_of_lt).perm (perm_entries blocks).symm Ne.symm

theorem above_of_zipIdxLE (h : List.zipIdxLE (fun a b : Block => decide (a.y.rank ≤ b.y.rank)) a b)
    (ne : a.2 ≠ b.2) : Above a b := by
  simp only [List.zipIdxLE, decide_eq_true_eq] at h
  split at h
  · next le =>
    split at h
    · next ge =>
      have level := Binary64.rank_inj.1 (Int.le_antisymm le ge)
      exact .inr ⟨level, Nat.lt_of_le_of_ne (of_decide_eq_true h) ne⟩
    · next lt => exact .inl (Int.not_le.1 lt)
  · cases h

theorem sorted_entries (blocks : List Block) : (entries blocks).Pairwise Above := by
  have le := List.pairwise_mergeSort (List.zipIdxLE_trans above_trans)
    (List.zipIdxLE_total above_total) blocks.zipIdx
  exact (le.and (number_ne_entries blocks)).imp fun h => above_of_zipIdxLE h.1 h.2

/-- The entries are the only list of the numbered blocks in the order of the program. -/
theorem eq_entries (sorted : rows.Pairwise Above) (perm : rows.Perm blocks.zipIdx) :
    rows = entries blocks :=
  Above.eq_of_perm sorted (sorted_entries blocks) (perm.trans (perm_entries blocks).symm)

theorem map_fst_entries (blocks : List Block) : (entries blocks).map Prod.fst = inRows blocks := by
  rw [map_fst_eq_inRows (sorted_entries blocks) (perm_entries blocks) (placed_zipIdx blocks),
    List.zipIdx_map_fst]

theorem synthesize_eq_entries (nonempty : blocks ≠ []) :
    synthesize blocks = "\n\n".toList.intercalate ((entries blocks).map fun e => e.1.render) := by
  rw [synthesize, if_neg nonempty, ← map_fst_entries, List.map_map]
  rfl

end Program
end BlockCanvas
