import BlockCanvas.Canvas.Edit
import BlockCanvas.Proofs.Except

/-!
# Edits of the canvas

An edit looks at the first block with its id and at nothing else (`edit_eq`): it puts another block
with this id in its place, removes it, or is refused.  Hence edits of different blocks commute,
`edit_comm`, and operations keep a workspace well formed, `wellFormed_after`.
-/

namespace BlockCanvas

variable {a b : Text} {new new' : List Block}

/-! ### The first block with an id -/

/-- The list with other blocks in the place of the first one that has the id. -/
def replaceFirst (id : Text) (new : List Block) : List Block → List Block
  | [] => []
  | block :: rest => if block.id == id then new ++ rest else block :: replaceFirst id new rest

/-- All of these blocks have the id. -/
def Named (id : Text) (blocks : List Block) : Prop := ∀ block ∈ blocks, block.id = id

theorem find?_append_of_named (ne : a ≠ b) (named : Named a new) (rest : List Block) :
    (new ++ rest).find? (fun block => block.id == b) =
      rest.find? fun block => block.id == b := by
  rw [List.find?_append, List.find?_eq_none.2, Option.none_or]
  intro block mem found
  exact ne ((named block mem).symm.trans (eq_of_beq found))

theorem replaceFirst_append_of_named (ne : a ≠ b) (named : Named a new) (rest : List Block) :
    replaceFirst b new' (new ++ rest) = new ++ replaceFirst b new' rest := by
  induction new with
  | nil => rfl
  | cons block new ih =>
    have other : ¬ (block.id == b) = true := by
      rw [named block List.mem_cons_self, beq_iff_eq]
      exact ne
    rw [List.cons_append, replaceFirst, if_neg other,
      ih fun c hc => named c (List.mem_cons_of_mem block hc), List.cons_append]

/-- Replacing the block of one id leaves the block of another where it is found. -/
theorem find?_replaceFirst (ne : a ≠ b) (named : Named a new) (blocks : List Block) :
    (replaceFirst a new blocks).find? (fun block => block.id == b) =
      blocks.find? fun block => block.id == b := by
  induction blocks with
  | nil => rfl
  | cons block rest ih =>
    rw [replaceFirst]
    split
    · next found =>
      have other : (block.id == b) = false := by
        rw [eq_of_beq found]
        exact beq_false_of_ne ne
      rw [find?_append_of_named ne named, List.find?_cons, other]
    · rw [List.find?_cons, List.find?_cons, ih]

theorem replaceFirst_comm (ne : a ≠ b) (named : Named a new) (named' : Named b new')
    (blocks : List Block) :
    replaceFirst b new' (replaceFirst a new blocks) =
      replaceFirst a new (replaceFirst b new' blocks) := by
  induction blocks with
  | nil => rfl
  | cons block rest ih =>
    by_cases first : (block.id == a) = true
    · have other : ¬ (block.id == b) = true := by
        rw [eq_of_beq first, beq_iff_eq]
        exact ne
      simp only [replaceFirst, if_pos first, if_neg other, replaceFirst_append_of_named ne named]
    · by_cases second : (block.id == b) = true
      · simp only [replaceFirst, if_neg first, if_pos second,
          replaceFirst_append_of_named ne.symm named']
      · simp only [replaceFirst, if_neg first, if_neg second, ih]

theorem eraseP_eq_replaceFirst (id : Text) (blocks : List Block) :
    blocks.eraseP (fun block => block.id == id) = replaceFirst id [] blocks := by
  induction blocks with
  | nil => rfl
  | cons block rest ih =>
    rw [List.eraseP_cons, Bool.cond_eq_ite, replaceFirst, ih, List.nil_append]

theorem modifyFirst_eq_replaceFirst {ε : Type} (id : Text) (missing : ε)
    (change : Block → Except ε Block) (blocks : List Block) :
    Workspace.modifyFirst (fun block => block.id == id) missing change blocks =
      match blocks.find? fun block => block.id == id with
      | none => .error missing
      | some block => (change block).map fun changed => replaceFirst id [changed] blocks := by
  induction blocks with
  | nil => rfl
  | cons block rest ih =>
    rw [Workspace.modifyFirst, List.find?_cons]
    by_cases first : (block.id == id) = true
    · simp only [first, if_true, replaceFirst]
      rfl
    · rw [if_neg first, ih]
      simp only [first, replaceFirst]
      cases rest.find? fun block => block.id == id with
      | none => rfl
      | some found =>
        dsimp only
        cases change found <;> rfl

theorem ids_replaceFirst_of_named {id : Text} {block : Block} (named : block.id = id)
    (blocks : List Block) :
    (replaceFirst id [block] blocks).map Block.id = blocks.map Block.id := by
  induction blocks with
  | nil => rfl
  | cons c rest ih =>
    rw [replaceFirst]
    split
    · next first => simp only [List.cons_append, List.nil_append, List.map_cons, named,
        eq_of_beq first]
    · rw [List.map_cons, ih, List.map_cons]

theorem ids_replaceFirst_nil (id : Text) (blocks : List Block) :
    (replaceFirst id [] blocks).map Block.id = (blocks.map Block.id).erase id := by
  induction blocks with
  | nil => rfl
  | cons c rest ih =>
    rw [replaceFirst, List.map_cons, List.erase_cons]
    split
    · rfl
    · rw [List.map_cons, ih]

/-! ### What an edit does -/

/-- What an edit makes of the first block with the id, if there is one: the block in its place, or
none if it is removed. -/
def Edit.verdict (id : Text) : Edit → Option Block → Except EditError (Option Block)
  | _, none => .error (.unknownBlock id)
  | .move x y, some block => .ok (some { block with x, y })
  | .update name value, some block =>
    (Workspace.modifyFirst (fun i => i.id == name) (EditError.unknownInput id name)
      (fun i => .ok { i with value := some value }) block.inputs).map fun inputs =>
        some { block with inputs }
  | .delete, some _ => .ok none

/-- What an edit gives back that finds this block. -/
def Edit.returned : Edit → Option Block → Option Block
  | .delete, found => found
  | _, _ => none

/-- No verdict gives a block another id. -/
theorem Edit.named_of_verdict {id : Text} {e : Edit} {found after : Option Block}
    (named : ∀ block ∈ found, block.id = id) (h : e.verdict id found = .ok after) :
    Named id after.toList := by
  cases found with
  | none => cases e <;> cases h
  | some block =>
    have id_eq := named block rfl
    cases e with
    | move x y =>
      cases h
      exact List.forall_mem_singleton.2 id_eq
    | update name value =>
      obtain ⟨inputs, -, rfl⟩ := map_eq_ok.1 h
      exact List.forall_mem_singleton.2 id_eq
    | delete =>
      cases h
      exact fun _ mem => absurd mem List.not_mem_nil

namespace Workspace

/-- The workspace after a verdict on the first block with the id; only a removal clears the
selection. -/
def put (w : Workspace) (id : Text) : Except EditError (Option Block) → Workspace
  | .error _ => w
  | .ok after =>
    ⟨replaceFirst id after.toList w.blocks,
      if after = none ∧ w.selected = some id then none else w.selected⟩

theorem named_of_verdict {w : Workspace} {id : Text} {e : Edit} {after : Option Block}
    (h : e.verdict id (w.block? id) = .ok after) : Named id after.toList := by
  refine Edit.named_of_verdict (fun block found => ?_) h
  exact eq_of_beq (List.find?_some (p := fun block : Block => block.id == id) found)

theorem modify_eq (w : Workspace) (id : Text) (change : Block → Except EditError Block) :
    w.modify id change =
      match w.block? id with
      | none => .error (.unknownBlock id)
      | some block => (change block).map fun changed =>
          { w with blocks := replaceFirst id [changed] w.blocks } := by
  rw [modify, modifyFirst_eq_replaceFirst, block?]
  cases w.blocks.find? fun block => block.id == id with
  | none => rfl
  | some block =>
    dsimp only
    cases change block <;> rfl

/-- An edit depends on the first block with its id alone. -/
theorem edit_eq (w : Workspace) (id : Text) (e : Edit) :
    w.edit id e =
      ((e.verdict id (w.block? id)).map fun _ => e.returned (w.block? id),
        w.put id (e.verdict id (w.block? id))) := by
  cases e with
  | move x y =>
    rw [edit, move, modify_eq]
    cases w.block? id with
    | none => rfl
    | some block => simp [settle, Edit.verdict, put, Except.map, Edit.returned]
  | update name value =>
    rw [edit, update, modify_eq]
    cases w.block? id with
    | none => rfl
    | some block =>
      simp only [Edit.verdict]
      generalize modifyFirst _ _ _ _ = inputs
      cases inputs with
      | error e => rfl
      | ok inputs => simp [settle, put, Except.map, Edit.returned]
  | delete =>
    rw [edit, delete]
    cases w.block? id with
    | none => rfl
    | some block =>
      simp [Edit.verdict, put, Except.map, Edit.returned, eraseP_eq_replaceFirst]

/-! ### Edits of different blocks -/

variable {w : Workspace} {r s : Except EditError (Option Block)}

theorem block?_put (ne : a ≠ b) (named : ∀ after, r = .ok after → Named a after.toList) :
    (w.put a r).block? b = w.block? b := by
  cases r with
  | error e => rfl
  | ok after => exact find?_replaceFirst ne (named after rfl) w.blocks

theorem put_comm (ne : a ≠ b) (named : ∀ after, r = .ok after → Named a after.toList)
    (named' : ∀ after, s = .ok after → Named b after.toList) :
    (w.put a r).put b s = (w.put b s).put a r := by
  cases r with
  | error e => rfl
  | ok after =>
    cases s with
    | error e => rfl
    | ok after' =>
      simp only [put, replaceFirst_comm ne (named after rfl) (named' after' rfl)]
      congr 1
      grind

/-- Edits of blocks with different ids give the same in either order: each gives back what it gives
back alone, and the workspace is the same after both. -/
theorem edit_comm (w : Workspace) {a b : Text} (ne : a ≠ b) (e f : Edit) :
    ((w.edit a e).2.edit b f).1 = (w.edit b f).1 ∧
      ((w.edit b f).2.edit a e).1 = (w.edit a e).1 ∧
      ((w.edit a e).2.edit b f).2 = ((w.edit b f).2.edit a e).2 := by
  have named (after : Option Block) (h : e.verdict a (w.block? a) = .ok after) :=
    named_of_verdict h
  have named' (after : Option Block) (h : f.verdict b (w.block? b) = .ok after) :=
    named_of_verdict h
  simp only [edit_eq, block?_put ne named, block?_put ne.symm named', put_comm ne named named',
    and_self]

/-- A selected block among others, one of which has its id. -/
def crowded : Workspace :=
  ⟨[['a'], ['b'], ['a']].map fun id =>
    ⟨id, [], .io, id, [], [], .zero false, .zero false, none, [], []⟩, some ['a']⟩

theorem edit_comm_crowded :
    ['a'] ≠ ['b'] ∧
      ((crowded.edit ['a'] .delete).2.edit ['b'] (.update ['i'] ['v'])).1 =
        .error (.unknownInput ['b'] ['i']) ∧
      ((crowded.edit ['b'] .delete).2.edit ['a'] .delete).1 = .ok (crowded.block? ['a']) ∧
      ((crowded.edit ['a'] .delete).2.edit ['b'] .delete).2 =
        ((crowded.edit ['b'] .delete).2.edit ['a'] .delete).2 := by
  have ne : ['a'] ≠ ['b'] := by decide
  refine ⟨ne, ?_, ?_, (edit_comm crowded ne .delete .delete).2.2⟩
  · rw [(edit_comm crowded ne .delete (.update ['i'] ['v'])).1]
    rfl
  · rw [(edit_comm crowded ne .delete .delete).2.1]
    rfl

/-! ### Well-formed workspaces -/

/-- No two blocks have one id, and what is selected is on the canvas. -/
structure WellFormed (w : Workspace) : Prop where
  distinct : w.ids.Nodup
  selected : ∀ id ∈ w.selected, id ∈ w.ids

/-- The block that is selected is there exactly if something is selected. -/
theorem WellFormed.isSome_selectedBlock (h : w.WellFormed) :
    w.selectedBlock.isSome = w.selected.isSome := by
  rw [selectedBlock]
  cases chosen : w.selected with
  | none => rfl
  | some id =>
    obtain ⟨block, mem, rfl⟩ := List.mem_map.1 (h.selected id chosen)
    have found : (w.block? block.id).isSome :=
      List.find?_isSome.2 ⟨block, mem, beq_self_eq_true block.id⟩
    exact found

theorem WellFormed.put (h : w.WellFormed) {id : Text}
    (named : ∀ after, r = .ok after → Named id after.toList) : (w.put id r).WellFormed := by
  match r, named with
  | .error _, _ => exact h
  | .ok (some block), named =>
    have ids : (w.put id (.ok (some block))).ids = w.ids :=
      ids_replaceFirst_of_named (named _ rfl block List.mem_cons_self) w.blocks
    have selected : (w.put id (.ok (some block))).selected = w.selected := by
      simp [Workspace.put]
    exact ⟨ids ▸ h.distinct, by rw [ids, selected]; exact h.selected⟩
  | .ok none, _ =>
    have ids : (w.put id (.ok none)).ids = w.ids.erase id := ids_replaceFirst_nil id w.blocks
    refine ⟨ids ▸ h.distinct.erase id, ?_⟩
    rw [ids]
    intro chosen (still : (if none = none ∧ w.selected = some id then none else w.selected) =
      some chosen)
    split at still
    · cases still
    · next other =>
      have ne : chosen ≠ id := fun e => other ⟨rfl, e ▸ still⟩
      exact (List.mem_erase_of_ne ne).2 (h.selected chosen still)

end Workspace

/-! ### Operations -/

/-- New blocks get new ids, and what is selected is on the canvas. -/
def Operation.Allowed (w : Workspace) : Operation → Prop
  | .add _ id _ _ => id ∉ w.ids
  | .edit _ _ => True
  | .select id => ∀ i ∈ id, i ∈ w.ids

instance (w : Workspace) : (o : Operation) → Decidable (o.Allowed w)
  | .add _ id _ _ => inferInstanceAs (Decidable (id ∉ w.ids))
  | .edit _ _ => .isTrue trivial
  | .select id => inferInstanceAs (Decidable (∀ i ∈ id, i ∈ w.ids))

namespace Workspace

/-- Each of the operations is allowed when its turn comes. -/
def Allows (w : Workspace) : List Operation → Prop
  | [] => True
  | o :: operations => o.Allowed w ∧ (w.operate o).Allows operations

instance Allows.decidable : (w : Workspace) → (operations : List Operation) →
    Decidable (w.Allows operations)
  | _, [] => .isTrue trivial
  | w, o :: operations =>
    have := Allows.decidable (w.operate o) operations
    inferInstanceAs (Decidable (o.Allowed w ∧ (w.operate o).Allows operations))

theorem WellFormed.operate {w : Workspace} (h : w.WellFormed) {o : Operation}
    (allowed : o.Allowed w) : (w.operate o).WellFormed := by
  cases o with
  | add t id x y =>
    have ids : (w.operate (.add t id x y)).ids = w.ids ++ [id] := List.map_append
    refine ⟨?_, ?_⟩
    · rw [ids, List.nodup_append]
      refine ⟨h.distinct, by simp, ?_⟩
      rintro old present _ (_ | ⟨_, ⟨⟩⟩) rfl
      exact allowed present
    · rw [ids]
      exact fun chosen still => List.mem_append_left _ (h.selected chosen still)
  | edit id e =>
    rw [Workspace.operate, edit_eq]
    exact h.put fun _ => named_of_verdict
  | select id => exact ⟨h.distinct, allowed⟩

/-- Operations keep a workspace well formed as long as new blocks get new ids and what is selected
is on the canvas: no two blocks have one id, and the block that is selected is there exactly if
something is selected.  Edits may name any block, and may be refused. -/
theorem wellFormed_after {w : Workspace} (h : w.WellFormed) {operations : List Operation}
    (allowed : w.Allows operations) :
    (w.after operations).WellFormed ∧
      (w.after operations).selectedBlock.isSome = (w.after operations).selected.isSome := by
  suffices (w.after operations).WellFormed from ⟨this, this.isSome_selectedBlock⟩
  induction operations generalizing w with
  | nil => exact h
  | cons o operations ih => exact ih (h.operate allowed.1) allowed.2

/-- Blocks are added, selected, edited and deleted, with edits that are refused in between. -/
def busyDay : List Operation :=
  let t : Template := ⟨[], .io, [], [], [], none, [⟨['i'], [], .any, none⟩], []⟩
  [.edit ['a'] .delete, .add t ['a'] (.zero true) .nan, .select (some ['a']),
    .edit ['b'] (.move .nan .nan), .edit ['a'] (.update ['i'] []), .edit ['a'] (.update ['o'] []),
    .add t ['b'] .nan .nan, .edit ['a'] .delete, .select (some ['b'])]

theorem wellFormed_after_busyDay :
    empty.WellFormed ∧ empty.Allows busyDay ∧ (empty.after busyDay).WellFormed ∧
      (empty.after busyDay).selectedBlock.isSome = true := by
  have start : empty.WellFormed := ⟨List.nodup_nil, nofun⟩
  have allowed : empty.Allows busyDay := by decide
  obtain ⟨wellFormed, selected⟩ := wellFormed_after start allowed
  exact ⟨start, allowed, wellFormed, selected⟩

end Workspace
end BlockCanvas
