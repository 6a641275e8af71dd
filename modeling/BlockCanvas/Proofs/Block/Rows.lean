import BlockCanvas.Block.Fragment

/-!
# Blocks from top to bottom

`TopDown blocks rows` says what the order of the fragments in a program is: every block once, the
higher ones first, and blocks at one height as they were placed.  Only one list is in this order.
So removing blocks from the canvas removes them from the rows and moves no other block.

Main statements: `topDown_inRows`, `TopDown.unique`, `inRows_filter`, `synthesize_map`.
-/

namespace BlockCanvas

/-- Different bit patterns have different places in the total order. -/
theorem Binary64.rank_inj {x y : Binary64} : x.rank = y.rank ↔ x = y := by
  constructor
  · intro h
    rcases x with ⟨s, c, hc⟩
    rcases y with ⟨t, d, hd⟩
    cases s <;> cases t <;>
      simp only [rank, Bool.false_eq_true, if_true, if_false] at h <;>
      simp only [mk.injEq, reduceCtorEq, true_and, false_and] <;>
      omega
  · rintro rfl
    rfl

namespace Program

variable {blocks rows rows' : List Block}

/-- The rows are the blocks from top to bottom, with blocks at one height in their old order. -/
structure TopDown (blocks rows : List Block) : Prop where
  perm : rows.Perm blocks
  sorted : rows.Pairwise fun a b => a.y.rank ≤ b.y.rank
  stable : ∀ y, rows.filter (·.y = y) = blocks.filter (·.y = y)

/-! ### The order of the program -/

theorem above_trans (a b c : Block) (hab : decide (a.y.rank ≤ b.y.rank) = true)
    (hbc : decide (b.y.rank ≤ c.y.rank) = true) : decide (a.y.rank ≤ c.y.rank) = true :=
  decide_eq_true (Int.le_trans (of_decide_eq_true hab) (of_decide_eq_true hbc))

theorem above_total (a b : Block) :
    (decide (a.y.rank ≤ b.y.rank) || decide (b.y.rank ≤ a.y.rank)) = true := by
  rw [Bool.or_eq_true, decide_eq_true_eq, decide_eq_true_eq]
  exact Int.le_total _ _

theorem perm_inRows (blocks : List Block) : (inRows blocks).Perm blocks :=
  List.mergeSort_perm _ _

theorem sorted_inRows (blocks : List Block) :
    (inRows blocks).Pairwise fun a b => a.y.rank ≤ b.y.rank :=
  (List.pairwise_mergeSort above_trans above_total blocks).imp of_decide_eq_true

/-- Blocks at one height are in order as they are, and sorting keeps what is in order. -/
theorem stable_inRows (blocks : List Block) (y : Binary64) :
    (inRows blocks).filter (·.y = y) = blocks.filter (·.y = y) := by
  have level : (blocks.filter (·.y = y)).Pairwise fun a b => decide (a.y.rank ≤ b.y.rank) := by
    rw [List.pairwise_filter]
    refine List.pairwise_of_forall fun a b ha hb => ?_
    rw [of_decide_eq_true ha, of_decide_eq_true hb]
    exact decide_eq_true (Int.le_refl _)
  have kept : (blocks.filter (·.y = y)).Sublist ((inRows blocks).filter (·.y = y)) := by
    have inside : (blocks.filter (·.y = y)).Sublist (inRows blocks) :=
      List.sublist_mergeSort above_trans above_total level List.filter_sublist
    simpa only [List.filter_filter, Bool.and_self] using inside.filter (·.y = y)
  have length := ((perm_inRows blocks).filter (·.y = y)).length_eq
  exact (kept.eq_of_length length.symm).symm

theorem topDown_inRows (blocks : List Block) : TopDown blocks (inRows blocks) :=
  ⟨perm_inRows blocks, sorted_inRows blocks, stable_inRows blocks⟩

/-! ### Only one order -/

/-- Two lists in order are equal if they have the same blocks, in the same order, at each height. -/
theorem eq_of_sorted (sorted : rows.Pairwise fun a b => a.y.rank ≤ b.y.rank)
    (sorted' : rows'.Pairwise fun a b => a.y.rank ≤ b.y.rank)
    (same : ∀ y, rows.filter (·.y = y) = rows'.filter (·.y = y)) : rows = rows' := by
  induction rows generalizing rows' with
  | nil =>
    cases rows' with
    | nil => rfl
    | cons b rows' => simpa using same b.y
  | cons a rows ih =>
    cases rows' with
    | nil => simpa using same a.y
    | cons b rows' =>
      rw [List.pairwise_cons] at sorted sorted'
      have inside : a ∈ b :: rows' := by
        have : a ∈ (b :: rows').filter (·.y = a.y) := by rw [← same]; simp
        exact (List.mem_filter.1 this).1
      have inside' : b ∈ a :: rows := by
        have : b ∈ (a :: rows).filter (·.y = b.y) := by rw [same]; simp
        exact (List.mem_filter.1 this).1
      -- each of the two heads is nowhere below the other
      have level : a.y = b.y := by
        rcases List.mem_cons.1 inside with rfl | later
        · rfl
        rcases List.mem_cons.1 inside' with rfl | later'
        · rfl
        have := sorted.1 b later'
        have := sorted'.1 a later
        exact Binary64.rank_inj.1 (by omega)
      obtain rfl : a = b := by
        have heads := same a.y
        rw [List.filter_cons_of_pos (by simp), List.filter_cons_of_pos (by simp [level])] at heads
        exact (List.cons.inj heads).1
      rw [ih sorted.2 sorted'.2 fun y => ?_]
      have tails := same y
      rw [List.filter_cons, List.filter_cons] at tails
      split at tails
      · exact (List.cons.inj tails).2
      · exact tails

/-- Only one list is in the order of the program. -/
theorem TopDown.unique (h : TopDown blocks rows) (h' : TopDown blocks rows') : rows = rows' :=
  eq_of_sorted h.sorted h'.sorted fun y => (h.stable y).trans (h'.stable y).symm

theorem TopDown.filter (h : TopDown blocks rows) (p : Block → Bool) :
    TopDown (blocks.filter p) (rows.filter p) where
  perm := h.perm.filter p
  sorted := h.sorted.filter p
  stable y := by
    have swap (l : List Block) :
        (l.filter p).filter (·.y = y) = (l.filter (·.y = y)).filter p := by
      simp only [List.filter_filter, Bool.and_comm]
    rw [swap, swap, h.stable]

/-- Removing blocks moves no other block. -/
theorem inRows_filter (p : Block → Bool) (blocks : List Block) :
    inRows (blocks.filter p) = (inRows blocks).filter p :=
  (topDown_inRows _).unique ((topDown_inRows blocks).filter p)

/-! ### Changes of all blocks -/

/-- A change of all blocks that keeps the order of their heights keeps the order of the program. -/
theorem inRows_map {f : Block → Block}
    (order : ∀ a ∈ blocks, ∀ b ∈ blocks, a.y.rank ≤ b.y.rank ↔ (f a).y.rank ≤ (f b).y.rank) :
    inRows (blocks.map f) = (inRows blocks).map f := by
  symm
  apply List.map_mergeSort
  intro a ha b hb
  exact decide_eq_decide.2 (order a ha b hb)

theorem synthesize_map {f : Block → Block}
    (order : ∀ a ∈ blocks, ∀ b ∈ blocks, a.y.rank ≤ b.y.rank ↔ (f a).y.rank ≤ (f b).y.rank)
    (shown : ∀ b, (f b).render = b.render) : synthesize (blocks.map f) = synthesize blocks := by
  have fragments : (inRows (blocks.map f)).map Block.render = (inRows blocks).map Block.render := by
    rw [inRows_map order, List.map_map]
    exact List.map_congr_left fun b _ => shown b
  simp only [synthesize, fragments, List.map_eq_nil_iff]

end Program
end BlockCanvas
