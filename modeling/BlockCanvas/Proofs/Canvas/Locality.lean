import BlockCanvas.Proofs.Canvas.Edits

/-!
# What an edit changes

An edit is refused if it finds nothing to change, and then changes nothing (`Refused`).  Otherwise
it changes the first block with its id, in one place, and keeps the blocks before and after it
(`Edit.Done`).

Main statement: `edit_eq_iff`, an edit does exactly this.
-/

namespace BlockCanvas

/-! ### The first item with a name -/

/-- A list falls into the first item that has a name, and what stands before and after it. -/
structure FirstNamed {α : Type} (name : α → Text) (n : Text) (l before : List α) (a : α)
    (after : List α) : Prop where
  split : l = before ++ a :: after
  named : name a = n
  others : ∀ b ∈ before, name b ≠ n

section FirstNamed

variable {α ε : Type} {name : α → Text} {n : Text} {l before after : List α} {a : α}

theorem find?_eq_some_iff_firstNamed : l.find? (fun b => name b == n) = some a ↔
    ∃ before after, FirstNamed name n l before a after := by
  rw [List.find?_eq_some_iff_append]
  constructor
  · rintro ⟨named, before, after, split, others⟩
    refine ⟨before, after, split, eq_of_beq named, fun b mem same => ?_⟩
    have other := others b mem
    rw [same, beq_self_eq_true] at other
    cases other
  · rintro ⟨before, after, split, named, others⟩
    refine ⟨beq_iff_eq.2 named, before, after, split, fun b mem => ?_⟩
    rw [Bool.not_eq_true', beq_false_of_ne (others b mem)]

theorem FirstNamed.find? (h : FirstNamed name n l before a after) :
    l.find? (fun b => name b == n) = some a :=
  find?_eq_some_iff_firstNamed.2 ⟨before, after, h⟩

theorem exists_firstNamed (present : ¬ ∀ a ∈ l, name a ≠ n) :
    ∃ before a after, FirstNamed name n l before a after := by
  cases found : l.find? fun b => name b == n with
  | none =>
    refine absurd (fun a mem same => ?_) present
    exact List.find?_eq_none.1 found a mem (beq_iff_eq.2 same)
  | some a =>
    obtain ⟨before, after, first⟩ := find?_eq_some_iff_firstNamed.1 found
    exact ⟨before, a, after, first⟩

/-- The items before the first one with the name are those up to there. -/
theorem FirstNamed.before_eq (h : FirstNamed name n l before a after) :
    before = l.takeWhile fun b => name b != n := by
  obtain ⟨rfl, named, others⟩ := h
  have skipped (b : α) (mem : b ∈ before) : (name b != n) = true := bne_iff_ne.2 (others b mem)
  rw [List.takeWhile_append_of_pos skipped, List.takeWhile_cons_of_neg (by simp [named]),
    List.append_nil]

/-- A change of the first item with the name passes over the items before it and stops there. -/
theorem FirstNamed.modifyFirst (h : FirstNamed name n l before a after) (missing : ε)
    (change : α → Except ε α) :
    Workspace.modifyFirst (fun b => name b == n) missing change l =
      (change a).map fun changed => before ++ changed :: after := by
  obtain ⟨rfl, named, others⟩ := h
  induction before with
  | nil => rw [List.nil_append, Workspace.modifyFirst, if_pos (beq_iff_eq.2 named)]; rfl
  | cons b before ih =>
    rw [List.forall_mem_cons] at others
    rw [List.cons_append, Workspace.modifyFirst, if_neg (mt beq_iff_eq.1 others.1), ih others.2]
    cases change a <;> rfl

theorem modifyFirst_of_absent (absent : ∀ a ∈ l, name a ≠ n) (missing : ε)
    (change : α → Except ε α) :
    Workspace.modifyFirst (fun b => name b == n) missing change l = .error missing := by
  induction l with
  | nil => rfl
  | cons b l ih =>
    rw [List.forall_mem_cons] at absent
    rw [Workspace.modifyFirst, if_neg (mt beq_iff_eq.1 absent.1), ih absent.2]
    rfl

theorem FirstNamed.eraseP (h : FirstNamed name n l before a after) :
    l.eraseP (fun b => name b == n) = before ++ after := by
  have skipped (b : α) (mem : b ∈ before) : ¬ (name b == n) = true :=
    mt beq_iff_eq.1 (h.others b mem)
  rw [h.split, List.eraseP_append_right _ skipped, List.eraseP_cons, beq_iff_eq.2 h.named,
    cond_true]

end FirstNamed

/-! ### Edits -/

/-- Why an edit of the block with an id is refused: there is no such block, or the first one has no
input of the name. -/
inductive Edit.Refused (id : Text) (w : Workspace) : Edit → EditError → Prop
  | unknownBlock {e : Edit} (absent : ∀ block ∈ w.blocks, block.id ≠ id) :
      Refused id w e (.unknownBlock id)
  | unknownInput {name value : Text} {before after : List Block} {block : Block}
      (first : FirstNamed Block.id id w.blocks before block after)
      (absent : ∀ i ∈ block.inputs, i.id ≠ name) :
      Refused id w (.update name value) (.unknownInput id name)

/-- What an edit gives back and makes of the workspace in which it finds the block with an id: of
the first such block it changes the place or the value of the first input of the name, or it removes
the block and gives it back. -/
inductive Edit.Done (id : Text) (w : Workspace) : Edit → Option Block → Workspace → Prop
  | move {x y : Binary64} {before after : List Block} {block : Block}
      (first : FirstNamed Block.id id w.blocks before block after) :
      Done id w (.move x y) none ⟨before ++ { block with x, y } :: after, w.selected⟩
  | update {name value : Text} {before after : List Block} {block : Block}
      {inputs inputs' : List Input} {i : Input}
      (first : FirstNamed Block.id id w.blocks before block after)
      (input : FirstNamed Input.id name block.inputs inputs i inputs') :
      Done id w (.update name value) none
        ⟨before ++
          { block with inputs := inputs ++ { i with value := some value } :: inputs' } :: after,
          w.selected⟩
  | delete {before after : List Block} {block : Block}
      (first : FirstNamed Block.id id w.blocks before block after) :
      Done id w .delete (some block)
        ⟨before ++ after, if w.selected = some id then none else w.selected⟩

namespace Workspace

variable {w w' : Workspace} {id : Text} {e : Edit} {error : EditError} {given : Option Block}

theorem edit_of_refused (h : e.Refused id w error) : w.edit id e = (.error error, w) := by
  cases h with
  | unknownBlock absent =>
    have none : w.block? id = none :=
      List.find?_eq_none.2 fun block mem => mt beq_iff_eq.1 (absent block mem)
    rw [edit_eq, none]
    cases e <;> rfl
  | unknownInput first absent =>
    rw [edit_eq, block?, first.find?, Edit.verdict, modifyFirst_of_absent absent]
    rfl

theorem edit_of_done (h : e.Done id w given w') : w.edit id e = (.ok given, w') := by
  cases h with
  | move first =>
    rw [edit, move, modify, first.modifyFirst]
    rfl
  | update first input =>
    rw [edit, update, modify, first.modifyFirst, input.modifyFirst]
    rfl
  | delete first =>
    rw [edit, delete, block?, first.find?, first.eraseP]

/-- There is no third outcome. -/
theorem refused_or_done (w : Workspace) (id : Text) (e : Edit) :
    (∃ error, e.Refused id w error) ∨ ∃ given w', e.Done id w given w' := by
  by_cases absent : ∀ block ∈ w.blocks, block.id ≠ id
  · exact .inl ⟨_, .unknownBlock absent⟩
  · obtain ⟨before, block, after, first⟩ := exists_firstNamed absent
    cases e with
    | move x y => exact .inr ⟨_, _, .move first⟩
    | delete => exact .inr ⟨_, _, .delete first⟩
    | update name value =>
      by_cases missing : ∀ i ∈ block.inputs, i.id ≠ name
      · exact .inl ⟨_, .unknownInput first missing⟩
      · obtain ⟨inputs, i, inputs', input⟩ := exists_firstNamed missing
        exact .inr ⟨_, _, .update first input⟩

theorem refused_of_edit (h : w.edit id e = (.error error, w')) :
    e.Refused id w error ∧ w' = w := by
  rcases refused_or_done w id e with ⟨_, refused⟩ | ⟨_, _, done⟩
  · rw [edit_of_refused refused] at h
    cases h
    exact ⟨refused, rfl⟩
  · rw [edit_of_done done] at h
    cases h

theorem done_of_edit (h : w.edit id e = (.ok given, w')) : e.Done id w given w' := by
  rcases refused_or_done w id e with ⟨_, refused⟩ | ⟨_, _, done⟩
  · rw [edit_of_refused refused] at h
    cases h
  · rw [edit_of_done done] at h
    cases h
    exact done

/-- An edit fails exactly if there is no block with its id, or no input of its name in the first
such block, and leaves the workspace as it is.  Otherwise it does exactly what it is for: it changes
the place of the first block with its id, or one value in it, or removes and returns it. -/
theorem edit_eq_iff (w : Workspace) (id : Text) (e : Edit) :
    (∀ error w', w.edit id e = (.error error, w') ↔ e.Refused id w error ∧ w' = w) ∧
      ∀ given w', w.edit id e = (.ok given, w') ↔ e.Done id w given w' := by
  refine ⟨fun error w' => ⟨refused_of_edit, ?_⟩, fun given w' => ⟨done_of_edit, edit_of_done⟩⟩
  rintro ⟨refused, rfl⟩
  exact edit_of_refused refused

end Workspace
end BlockCanvas
