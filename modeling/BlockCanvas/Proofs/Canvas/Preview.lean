import BlockCanvas.Proofs.Block.Entries
import BlockCanvas.Proofs.Canvas.Locality

/-!
# The preview after an edit

The preview shows the fragments of the blocks from top to bottom.  An edit of one block, named by
its number, leaves all other entries where they are relative to each other: it takes the entry of
the block out, changes it in its place, or puts it in at another place.

Main statement: `fragments_edit`.
-/

namespace BlockCanvas
namespace Program

variable {before after : List Block}

/-- The entries but that of the block with a number. -/
def entriesWithout (number : Nat) (blocks : List Block) : List (Block × Nat) :=
  (entries blocks).filter (·.2 ≠ number)

/-- A numbered block, changed if it has this number. -/
def changeAt (number : Nat) (change : Block → Block) (e : Block × Nat) : Block × Nat :=
  if e.2 = number then (change e.1, e.2) else e

theorem zipIdx_split (before after : List Block) (block : Block) :
    (before ++ block :: after).zipIdx =
      before.zipIdx ++ (block, before.length) :: after.zipIdx (before.length + 1) := by
  rw [List.zipIdx_append, List.zipIdx_cons, Nat.zero_add]

theorem number_ne_of_mem_before {e : Block × Nat} (mem : e ∈ before.zipIdx) :
    e.2 ≠ before.length := by
  have := List.snd_lt_of_mem_zipIdx mem
  omega

theorem number_ne_of_mem_after {e : Block × Nat} {n : Nat} (mem : e ∈ after.zipIdx (n + 1)) :
    e.2 ≠ n := by
  have := List.le_snd_of_mem_zipIdx mem
  omega

/-- Without one block, the others keep their numbers. -/
theorem filter_number_zipIdx (before after : List Block) (block : Block) :
    (before ++ block :: after).zipIdx.filter (·.2 ≠ before.length) =
      before.zipIdx ++ after.zipIdx (before.length + 1) := by
  rw [zipIdx_split, List.filter_append, List.filter_cons_of_neg (by simp)]
  congr 1
  · exact List.filter_eq_self.2 fun e mem => decide_eq_true (number_ne_of_mem_before mem)
  · exact List.filter_eq_self.2 fun e mem => decide_eq_true (number_ne_of_mem_after mem)

theorem sorted_entriesWithout (number : Nat) (blocks : List Block) :
    (entriesWithout number blocks).Pairwise Above :=
  (sorted_entries blocks).filter _

theorem perm_entriesWithout (before after : List Block) (block : Block) :
    (entriesWithout before.length (before ++ block :: after)).Perm
      (before.zipIdx ++ after.zipIdx (before.length + 1)) := by
  rw [← filter_number_zipIdx before after block]
  exact (perm_entries _).filter _

/-- The other entries do not depend on a block. -/
theorem entriesWithout_congr (before after : List Block) (block block' : Block) :
    entriesWithout before.length (before ++ block :: after) =
      entriesWithout before.length (before ++ block' :: after) :=
  Above.eq_of_perm (sorted_entriesWithout _ _) (sorted_entriesWithout _ _)
    ((perm_entriesWithout before after block).trans (perm_entriesWithout before after block').symm)

/-- The other entries are the rows of the other blocks. -/
theorem map_fst_entriesWithout (before after : List Block) (block : Block) :
    (entriesWithout before.length (before ++ block :: after)).map Prod.fst =
      inRows (before ++ after) := by
  have placed : (before.zipIdx ++ after.zipIdx (before.length + 1)).Pairwise
      fun a b => a.2 < b.2 := by
    rw [← filter_number_zipIdx before after block]
    exact (placed_zipIdx _).filter _
  rw [map_fst_eq_inRows (sorted_entriesWithout _ _) (perm_entriesWithout before after block) placed,
    List.map_append, List.zipIdx_map_fst, List.zipIdx_map_fst]

/-- The entries but that of the last block are those without the last block. -/
theorem entriesWithout_concat (blocks : List Block) (block : Block) :
    entriesWithout blocks.length (blocks ++ [block]) = entries blocks := by
  refine eq_entries (sorted_entriesWithout _ _) ?_
  simpa using perm_entriesWithout blocks [] block

/-! ### Changes in place -/

theorem number_changeAt (number : Nat) (change : Block → Block) (e : Block × Nat) :
    (changeAt number change e).2 = e.2 := by
  rw [changeAt]
  split <;> rfl

theorem height_changeAt {change : Block → Block} (level : ∀ b, (change b).y = b.y) (number : Nat)
    (e : Block × Nat) : (changeAt number change e).1.y = e.1.y := by
  rw [changeAt]
  split
  · exact level e.1
  · rfl

theorem map_changeAt_zipIdx (change : Block → Block) (before after : List Block) (block : Block) :
    (before ++ block :: after).zipIdx.map (changeAt before.length change) =
      (before ++ change block :: after).zipIdx := by
  have others {rows : List (Block × Nat)} (h : ∀ e ∈ rows, e.2 ≠ before.length) :
      rows.map (changeAt before.length change) = rows :=
    (List.map_congr_left fun e mem => if_neg (h e mem)).trans (List.map_id' rows)
  rw [zipIdx_split, zipIdx_split, List.map_append, List.map_cons,
    others fun _ => number_ne_of_mem_before, others fun _ => number_ne_of_mem_after, changeAt,
    if_pos rfl]

/-- A change of a block that keeps its height keeps the place of its entry. -/
theorem entries_change (change : Block → Block) (level : ∀ b, (change b).y = b.y)
    (before after : List Block) (block : Block) :
    entries (before ++ change block :: after) =
      (entries (before ++ block :: after)).map (changeAt before.length change) := by
  symm
  apply eq_entries
  · rw [List.pairwise_map]
    refine (sorted_entries _).imp fun above => ?_
    simpa only [Above, height_changeAt level, number_changeAt] using above
  · rw [← map_changeAt_zipIdx]
    exact (perm_entries _).map _

/-! ### Fragments -/

/-- Numbered blocks as the preview shows them: each block with its program text. -/
def fragmentsOf (rows : List (Block × Nat)) : List (Block × Text) :=
  rows.map fun e => (e.1, e.1.render)

end Program

open Program

namespace Workspace

/-- What the preview shows: the blocks from top to bottom, each with its program text. -/
def fragments (w : Workspace) : List (Block × Text) :=
  (inRows w.blocks).map fun block => (block, block.render)

theorem fragments_of_map_fst {w : Workspace} {rows : List (Block × Nat)}
    (h : rows.map Prod.fst = inRows w.blocks) : w.fragments = fragmentsOf rows := by
  rw [fragments, ← h, List.map_map]
  rfl

end Workspace

/-- How the preview changes with an edit of the block that has a number: the entry of the block is
taken out, or filled in otherwise where it is, or it is put in at another place; the other entries
stay as they are. -/
def Edit.Redraws (number : Nat) (w w' : Workspace) : Edit → Prop
  | .move _ _ => entriesWithout number w'.blocks = entriesWithout number w.blocks
  | .update _ _ => ∃ inputs, entries w'.blocks =
      (entries w.blocks).map (changeAt number fun block => { block with inputs })
  | .delete => w'.fragments = fragmentsOf (entriesWithout number w.blocks)

theorem Edit.Done.redraws {id : Text} {w w' : Workspace} {e : Edit} {given : Option Block}
    (h : e.Done id w given w') : ∃ before block after,
      FirstNamed Block.id id w.blocks before block after ∧ e.Redraws before.length w w' := by
  cases h with
  | move first =>
    refine ⟨_, _, _, first, ?_⟩
    rw [Edit.Redraws, first.split]
    exact entriesWithout_congr _ _ _ _
  | @update name value before after block inputs inputs' i first input =>
    let filled := inputs ++ { i with value := some value } :: inputs'
    refine ⟨before, block, after, first, ?_⟩
    rw [Edit.Redraws, first.split]
    exact ⟨filled, entries_change (fun b => { b with inputs := filled }) (fun _ => rfl) _ _ _⟩
  | delete first =>
    refine ⟨_, _, _, first, ?_⟩
    rw [Edit.Redraws, first.split]
    exact Workspace.fragments_of_map_fst (map_fst_entriesWithout _ _ _)

namespace Workspace

/-- The preview changes only where the canvas was edited: an edit redraws the entry of the first
block with its id, and a new block has a new entry among those that were there. -/
theorem fragments_edit (w : Workspace) :
    (∀ v : Workspace, v.fragments = fragmentsOf (entries v.blocks)) ∧
      (∀ id e given w', w.edit id e = (.ok given, w') → ∃ before block after,
        FirstNamed Block.id id w.blocks before block after ∧ e.Redraws before.length w w') ∧
      ∀ t id x y, entriesWithout w.blocks.length (w.add t id x y).blocks = entries w.blocks :=
  ⟨fun v => fragments_of_map_fst (map_fst_entries v.blocks),
    fun _ _ _ _ done => (done_of_edit done).redraws,
    fun t id x y => entriesWithout_concat w.blocks (t.instantiate id x y)⟩

/-- The first block is deleted, or a block is added above all others, of which the value is set, or
another one is moved below them. -/
theorem fragments_edit_crowded :
    let input : Input := ⟨['i'], [], .any, none⟩
    let t : Template := ⟨['p'], .io, [], [], [], some "\x7bi\x7d".toList, [input], []⟩
    let added := crowded.add t ['c'] (.zero false) (.zero true)
    (∃ w, crowded.edit ['a'] .delete = (.ok (crowded.block? ['a']), w) ∧
        w.fragments = fragmentsOf (entriesWithout 0 crowded.blocks)) ∧
      entriesWithout 3 added.blocks = entries crowded.blocks ∧
      (∃ w inputs, added.edit ['c'] (.update ['i'] ['v']) = (.ok none, w) ∧
        entries w.blocks =
          (entries added.blocks).map (changeAt 3 fun block => { block with inputs })) ∧
      ∃ w, added.edit ['b'] (.move (.zero false) .nan) = (.ok none, w) ∧
        entriesWithout 1 w.blocks = entriesWithout 1 added.blocks := by
  intro input t added
  have redraws {w w' : Workspace} {id : Text} {e : Edit} {given : Option Block}
      (done : w.edit id e = (.ok given, w')) :
      e.Redraws (w.blocks.takeWhile fun b => b.id != id).length w w' := by
    obtain ⟨before, block, after, first, redraws⟩ := (fragments_edit w).2.1 id e given w' done
    rwa [first.before_eq] at redraws
  have deleted : crowded.edit ['a'] .delete = (.ok (crowded.block? ['a']), _) := rfl
  have updated : added.edit ['c'] (.update ['i'] ['v']) = (.ok none, _) := rfl
  have moved : added.edit ['b'] (.move (.zero false) .nan) = (.ok none, _) := rfl
  obtain ⟨inputs, same⟩ := redraws updated
  exact ⟨⟨_, deleted, redraws deleted⟩, (fragments_edit crowded).2.2 t ['c'] _ _,
    ⟨_, inputs, updated, same⟩, ⟨_, moved, redraws moved⟩⟩

end Workspace
end BlockCanvas
