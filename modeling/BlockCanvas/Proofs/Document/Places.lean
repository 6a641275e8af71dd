import BlockCanvas.Proofs.Document.Blocks

/-!
# Places in JSON documents

A JSON document has no way to write a place that is not finite: a block with one is written, but
what is written is not a document (`placed_of_ofDocument_toDocument`).  So the workspaces of
documents are those of blocks with finite places, `placed_of_ofDocument`, and these are read back
with the places that `Json.reread` gives, `ofDocument_toDocument_reread`.
-/

namespace BlockCanvas

open Json

/-! ### Blocks that are written -/

theorem isFinite_of_float_ofBinary64 {room : Nat} {x y : Binary64}
    (h : float room (ofBinary64 x) = .ok y) : x.isFinite := by
  unfold ofBinary64 at h
  split at h
  · assumption
  · cases h

theorem Block.placed_of_read_toJson {room : Nat} {b b' : Block}
    (h : Block.record.read (room + 1) b.toJson = .ok b') : b.Placed := by
  obtain ⟨_, h⟩ := record_read_ok h
  obtain ⟨_, -, h⟩ := collectMembers_field_ok rfl h
  obtain ⟨_, -, h⟩ := collectMembers_field_ok rfl h
  obtain ⟨_, -, h⟩ := collectMembers_field_ok rfl h
  obtain ⟨_, -, h⟩ := collectMembers_field_ok rfl h
  obtain ⟨_, -, h⟩ := collectMembers_field_ok rfl h
  obtain ⟨_, -, h⟩ := collectMembers_field_ok rfl h
  obtain ⟨x, hx, h⟩ := collectMembers_field_ok rfl h
  obtain ⟨y, hy, -⟩ := collectMembers_field_ok rfl h
  exact ⟨isFinite_of_float_ofBinary64 hx, isFinite_of_float_ofBinary64 hy⟩

theorem Workspace.placed_of_read_toJson {room : Nat} {w w' : Workspace}
    (h : Workspace.record.read (room + 3) w.toJson = .ok w') : ∀ b ∈ w.blocks, b.Placed := by
  obtain ⟨_, h⟩ := record_read_ok h
  obtain ⟨_, blocks, -⟩ := collectMembers_field_ok rfl h
  intro b hb
  obtain ⟨b', read⟩ := list_ofList_ok blocks b hb
  exact Block.placed_of_read_toJson read

/-- Only blocks with finite places make a document. -/
theorem Workspace.placed_of_ofDocument_toDocument {w w' : Workspace}
    (h : Workspace.ofDocument w.toDocument = .ok w') : ∀ b ∈ w.blocks, b.Placed := by
  rw [Workspace.ofDocument_toDocument_eq] at h
  obtain ⟨_, h⟩ := record_read_ok h
  obtain ⟨_, read, -⟩ := collectMembers_field_ok rfl h
  exact Workspace.placed_of_read_toJson read

theorem Workspace.ofDocument_toDocument_reread {w : Workspace} (h : ∀ b ∈ w.blocks, b.Placed) :
    Workspace.ofDocument w.toDocument = .ok w.reread := by
  rw [Workspace.ofDocument_toDocument_eq]
  exact Workspace.read_document 126 (Workspace.read_toJson_eq 121 h)

/-! ### Blocks that are read -/

/-- The places that were collected are finite. -/
structure Block.Draft.Placed (d : Block.Draft) : Prop where
  x : ∀ x ∈ d.x, x.isFinite
  y : ∀ y ∈ d.y, y.isFinite

theorem Block.fieldsKeep_placed : FieldsKeep Block.Draft.Placed Block.record.fields := by
  iterate 6 refine .field ?_ fun _ placed => ⟨placed.x, placed.y⟩
  refine .field ?_ fun read placed => ⟨?_, placed.y⟩
  refine .field ?_ fun read placed => ⟨placed.x, ?_⟩
  iterate 3 refine .field ?_ fun _ placed => ⟨placed.x, placed.y⟩
  · exact fieldsKeep_nil
  · rintro x ⟨⟩
    exact isFinite_of_float read
  · rintro y ⟨⟩
    exact isFinite_of_float read

theorem Block.placed_of_read {room : Nat} {j : Json} {b : Block}
    (h : Block.record.read room j = .ok b) : b.Placed := by
  have start : Block.Draft.Placed {} := ⟨by rintro x ⟨⟩, by rintro y ⟨⟩⟩
  obtain ⟨d, placed, built⟩ := record_read_keeps Block.fieldsKeep_placed start h
  obtain ⟨_, -, built⟩ := Option.bind_eq_some_iff.1 built
  obtain ⟨_, -, built⟩ := Option.bind_eq_some_iff.1 built
  obtain ⟨_, -, built⟩ := Option.bind_eq_some_iff.1 built
  obtain ⟨_, -, built⟩ := Option.bind_eq_some_iff.1 built
  obtain ⟨_, -, built⟩ := Option.bind_eq_some_iff.1 built
  obtain ⟨_, -, built⟩ := Option.bind_eq_some_iff.1 built
  obtain ⟨x, hx, built⟩ := Option.bind_eq_some_iff.1 built
  obtain ⟨y, hy, built⟩ := Option.bind_eq_some_iff.1 built
  cases built
  exact ⟨placed.x x hx, placed.y y hy⟩

theorem Workspace.fieldsKeep_placed :
    FieldsKeep (fun d : Workspace.Draft => ∀ bs ∈ d.blocks, ∀ b ∈ bs, b.Placed)
      Workspace.record.fields := by
  refine .field (.field fieldsKeep_nil fun _ placed => placed) fun read _ => ?_
  rintro bs ⟨⟩ b hb
  obtain ⟨_, _, block⟩ := list_ok read b hb
  exact Block.placed_of_read block

theorem Workspace.placed_of_read {room : Nat} {j : Json} {w : Workspace}
    (h : Workspace.record.read room j = .ok w) : ∀ b ∈ w.blocks, b.Placed := by
  have start : ∀ bs ∈ (none : Option (List Block)), ∀ b ∈ bs, b.Placed := by rintro bs ⟨⟩
  obtain ⟨d, placed, built⟩ := record_read_keeps Workspace.fieldsKeep_placed start h
  obtain ⟨bs, hbs, built⟩ := Option.bind_eq_some_iff.1 built
  cases built
  exact placed bs hbs

/-- What a document is read as has finite places. -/
theorem Workspace.placed_of_ofDocument {s : Text} {w : Workspace}
    (h : Workspace.ofDocument s = .ok w) : ∀ b ∈ w.blocks, b.Placed := by
  have keep : FieldsKeep (fun d : Option Workspace => ∀ w ∈ d, ∀ b ∈ w.blocks, b.Placed)
      Workspace.documentRecord.fields := by
    refine .field fieldsKeep_nil fun read _ => ?_
    rintro w ⟨⟩
    exact Workspace.placed_of_read read
  have start : ∀ w ∈ (none : Option Workspace), ∀ b ∈ w.blocks, b.Placed := by rintro w ⟨⟩
  obtain ⟨j, read⟩ := readDocument_ok h
  obtain ⟨d, placed, built⟩ := record_read_keeps keep start read
  exact placed w built

end BlockCanvas
