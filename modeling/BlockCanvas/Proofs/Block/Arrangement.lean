import Mathlib.Data.List.Forall2
import Mathlib.Data.List.Nodup
import BlockCanvas.Proofs.Block.Fragments

/-!
# What a program depends on

Blocks at different heights give one program, in whatever order they were placed: the total order of
the heights is strict on them.  And of a block a program shows the label, the template and the
inputs, at its height; nothing depends on its other fields.

Main statement: `synthesize_of_perm_or_alike`.
-/

namespace BlockCanvas

/-- One block is the other with changes of its id, type, category, icon, color, x and outputs. -/
def Block.Alike (b c : Block) : Prop :=
  ∃ id type category icon color x outputs,
    c = { b with id, type, category, icon, color, x, outputs }

/-- A block without what no program shows. -/
def Block.bare (b : Block) : Block :=
  { b with
    id := [], type := [], category := .io, icon := [], color := [], x := .zero false,
    outputs := [] }

theorem Block.Alike.bare_eq {b c : Block} (h : b.Alike c) : b.bare = c.bare := by
  obtain ⟨id, type, category, icon, color, x, outputs, rfl⟩ := h
  rfl

namespace Program

variable {blocks other : List Block}

theorem inRows_eq_of_perm (heights : (blocks.map Block.y).Nodup) (perm : other.Perm blocks) :
    inRows other = inRows blocks := by
  refine List.Perm.eq_of_pairwise (fun a b ha hb le ge => ?_) (sorted_inRows other)
    (sorted_inRows blocks) (((perm_inRows other).trans perm).trans (perm_inRows blocks).symm)
  have mem : a ∈ blocks := perm.mem_iff.1 ((perm_inRows other).mem_iff.1 ha)
  have mem' : b ∈ blocks := (perm_inRows blocks).mem_iff.1 hb
  have level : a.y = b.y := Binary64.rank_inj.1 (Int.le_antisymm le ge)
  exact List.inj_on_of_nodup_map heights mem mem' level

theorem synthesize_of_perm (heights : (blocks.map Block.y).Nodup) (perm : other.Perm blocks) :
    synthesize other = synthesize blocks := by
  have empty : other = [] ↔ blocks = [] := by
    rw [← List.length_eq_zero_iff, perm.length_eq, List.length_eq_zero_iff]
  simp only [synthesize, inRows_eq_of_perm heights perm, empty]

theorem synthesize_map_bare (blocks : List Block) :
    synthesize (blocks.map Block.bare) = synthesize blocks :=
  synthesize_map (fun _ _ _ _ => Iff.rfl) fun _ => rfl

theorem synthesize_of_alike (alike : List.Forall₂ Block.Alike blocks other) :
    synthesize other = synthesize blocks := by
  have bare : blocks.map Block.bare = other.map Block.bare := by
    rw [← List.forall₂_eq_eq_eq, List.forall₂_map_left_iff, List.forall₂_map_right_iff]
    exact alike.imp fun _ _ => Block.Alike.bare_eq
  rw [← synthesize_map_bare, ← bare, synthesize_map_bare]

/-- Blocks whose heights differ in their bits give one program in every order; and no change of
what a program does not show of its blocks changes the program. -/
theorem synthesize_of_perm_or_alike (blocks other : List Block) :
    ((blocks.map fun b => b.y.bits).Nodup → other.Perm blocks →
      synthesize other = synthesize blocks) ∧
    (List.Forall₂ Block.Alike blocks other → synthesize other = synthesize blocks) := by
  refine ⟨fun bits perm => synthesize_of_perm ?_ perm, synthesize_of_alike⟩
  have bits' : ((blocks.map Block.y).map Binary64.bits).Nodup := by rwa [List.map_map]
  exact bits'.of_map

/-- Remarks at two NaNs, at both infinities and at both zeros. -/
def scattered : List Block :=
  [('a', .nan), ('b', .infinity false), ('c', .zero false), ('d', .ofBits 0xFFF8000000000001),
    ('e', .zero true), ('f', .infinity true)].map fun (label, y) => { remark [label] with y }

/-- The same remarks with their labels as ids, on a diagonal. -/
def diagonal : List Block := scattered.map fun b => { b with id := b.label, x := b.y }

theorem synthesize_of_perm_or_alike_scattered :
    (scattered.map fun b => b.y.bits).Nodup ∧ scattered.reverse.Perm scattered ∧
      synthesize scattered.reverse = synthesize scattered ∧
      List.Forall₂ Block.Alike scattered diagonal ∧
      synthesize diagonal = synthesize scattered := by
  have bits : (scattered.map fun b => b.y.bits).Nodup := by decide
  have perm : scattered.reverse.Perm scattered := List.reverse_perm scattered
  have alike : List.Forall₂ Block.Alike scattered diagonal :=
    List.forall₂_map_right_iff.2 (List.forall₂_same.2 fun b _ => ⟨_, _, _, _, _, _, _, rfl⟩)
  exact ⟨bits, perm, (synthesize_of_perm_or_alike _ _).1 bits perm, alike,
    (synthesize_of_perm_or_alike _ _).2 alike⟩

end Program
end BlockCanvas
