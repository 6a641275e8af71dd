import BlockCanvas.Document.Blocks
import BlockCanvas.Proofs.Document.Json.Reader

/-!
# Reading JSON documents back

Ports, templates of text and the selection are read from a JSON document exactly as they were
written, and the two places of a block as some number.  Main statement: `ofDocument_toDocument`.
-/

namespace BlockCanvas

open Json

/-! ### Ports -/

theorem Category.read_name (room : Nat) (c : Category) :
    Category.reader room (ofText c.name) = .ok c :=
  choice_ofText room (by cases c <;> decide) (by cases c <;> rfl)

theorem PortKind.read_name (room : Nat) (k : PortKind) :
    PortKind.reader room (ofText k.name) = .ok k :=
  choice_ofText room (by cases k <;> decide) (by cases k <;> rfl)

theorem Input.read_toJson (room : Nat) (i : Input) :
    Input.record.read (room + 1) i.toJson = .ok i := by
  refine record_read (d := ⟨some i.id, some i.label, some i.kind, some i.value⟩) ?_ rfl rfl
  apply collectMembers_field rfl rfl (text_ofText room _)
  apply collectMembers_field rfl rfl (text_ofText room _)
  apply collectMembers_field rfl rfl (PortKind.read_name room _)
  apply collectMembers_field rfl rfl (nullable_ofOption room _)
  rfl

theorem Output.read_toJson (room : Nat) (o : Output) :
    Output.record.read (room + 1) o.toJson = .ok o := by
  refine record_read (d := ⟨some o.id, some o.label, some o.kind⟩) ?_ rfl rfl
  apply collectMembers_field rfl rfl (text_ofText room _)
  apply collectMembers_field rfl rfl (text_ofText room _)
  apply collectMembers_field rfl rfl (PortKind.read_name room _)
  rfl

/-! ### Blocks -/

/-- A block at no place in particular: what two blocks share that differ at most in their
places. -/
def Block.unplaced (b : Block) : Block := { b with x := .zero false, y := .zero false }

/-- A block with finite places. -/
structure Block.Placed (b : Block) : Prop where
  x : b.x.isFinite
  y : b.y.isFinite

instance (b : Block) : Decidable b.Placed :=
  decidable_of_iff (b.x.isFinite ∧ b.y.isFinite) ⟨fun h => ⟨h.1, h.2⟩, fun h => ⟨h.x, h.y⟩⟩

theorem ofBinary64_of_isFinite {x : Binary64} (h : x.isFinite) :
    ofBinary64 x = .number (layout.numeral x) := if_pos h

/-- What is read where a finite number was written. -/
def Json.reread (x : Binary64) : Binary64 :=
  match Amount.ofNumeral? (layout.numeral x) with
  | some a => a.toFloat
  | none => x

theorem float_ofBinary64 (room : Nat) {x : Binary64} (h : x.isFinite) :
    float room (ofBinary64 x) = .ok (reread x) := by
  obtain ⟨a, ha⟩ := Option.isSome_iff_exists.1 (Amount.ofNumeral?_numeral_isSome h)
  rw [ofBinary64_of_isFinite h]
  simp only [float, reread, ha]

/-- A block with the places that are read where its own were written. -/
def Block.reread (b : Block) : Block := { b with x := Json.reread b.x, y := Json.reread b.y }

theorem Block.read_toJson (room : Nat) {b : Block} (h : b.Placed) :
    Block.record.read (room + 3) b.toJson = .ok b.reread := by
  refine record_read (d := ⟨some b.id, some b.type, some b.category, some b.label, some b.icon,
    some b.color, some (Json.reread b.x), some (Json.reread b.y), some b.template, some b.inputs,
    some b.outputs⟩) ?_ rfl rfl
  apply collectMembers_field rfl rfl (text_ofText _ _)
  apply collectMembers_field rfl rfl (text_ofText _ _)
  apply collectMembers_field rfl rfl (Category.read_name _ _)
  apply collectMembers_field rfl rfl (text_ofText _ _)
  apply collectMembers_field rfl rfl (text_ofText _ _)
  apply collectMembers_field rfl rfl (text_ofText _ _)
  apply collectMembers_field rfl rfl (float_ofBinary64 _ h.x)
  apply collectMembers_field rfl rfl (float_ofBinary64 _ h.y)
  apply collectMembers_field rfl rfl (nullable_ofOption _ _)
  apply collectMembers_field rfl rfl (list_ofList_self _ (Input.read_toJson room) _)
  apply collectMembers_field rfl rfl (list_ofList_self _ (Output.read_toJson room) _)
  rfl

/-! ### Workspaces -/

/-- A workspace with the places that are read where its own were written. -/
def Workspace.reread (w : Workspace) : Workspace := { w with blocks := w.blocks.map Block.reread }

theorem Workspace.read_toJson_eq (room : Nat) {w : Workspace} (h : ∀ b ∈ w.blocks, b.Placed) :
    Workspace.record.read (room + 5) w.toJson = .ok w.reread := by
  have blocks := list_ofList (room + 3) fun b hb => Block.read_toJson room (h b hb)
  refine record_read (d := ⟨some (w.blocks.map Block.reread), some w.selected⟩) ?_ rfl rfl
  apply collectMembers_field rfl rfl blocks
  apply collectMembers_field rfl rfl (nullable_ofOption _ _)
  rfl

theorem Workspace.read_toJson (room : Nat) {w : Workspace} (h : ∀ b ∈ w.blocks, b.Placed) :
    ∃ w', Workspace.record.read (room + 5) w.toJson = .ok w' ∧ w'.selected = w.selected ∧
      w'.blocks.map Block.unplaced = w.blocks.map Block.unplaced := by
  refine ⟨w.reread, Workspace.read_toJson_eq room h, rfl, ?_⟩
  rw [Workspace.reread, List.map_map]
  rfl

theorem Workspace.read_document (room : Nat) {w w' : Workspace}
    (h : Workspace.record.read room w.toJson = .ok w') :
    Workspace.documentRecord.read (room + 1) (ofFields [("workspace".toList, w.toJson)]) =
      .ok w' := by
  refine record_read (d := some w') ?_ rfl rfl
  apply collectMembers_field rfl rfl h
  rfl

/-! ### Whole documents -/

theorem whole_ofBinary64 (x : Binary64) : (ofBinary64 x).Whole := by
  unfold ofBinary64
  split
  · next h => exact layout.strict_numeral h
  · trivial

theorem Input.whole_toJson (i : Input) : i.toJson.Whole := by
  apply whole_ofFields
  simp [whole_ofText, whole_ofOption]

theorem Output.whole_toJson (o : Output) : o.toJson.Whole := by
  apply whole_ofFields
  simp [whole_ofText]

theorem Block.whole_toJson (b : Block) : b.toJson.Whole := by
  have inputs : (ofList (b.inputs.map Input.toJson)).Whole := by
    apply whole_ofList
    simp [Input.whole_toJson]
  have outputs : (ofList (b.outputs.map Output.toJson)).Whole := by
    apply whole_ofList
    simp [Output.whole_toJson]
  apply whole_ofFields
  simp [whole_ofText, whole_ofOption, whole_ofBinary64, inputs, outputs]

theorem Workspace.whole_toJson (w : Workspace) : w.toJson.Whole := by
  have blocks : (ofList (w.blocks.map Block.toJson)).Whole := by
    apply whole_ofList
    intro j hj
    obtain ⟨b, -, rfl⟩ := List.mem_map.1 hj
    exact Block.whole_toJson b
  apply whole_ofFields
  simp [whole_ofOption, blocks]

theorem Workspace.ofDocument_toDocument_eq (w : Workspace) :
    Workspace.ofDocument w.toDocument =
      Workspace.documentRecord.read maxDepth (ofFields [("workspace".toList, w.toJson)]) := by
  apply readDocument_pretty
  apply whole_ofFields
  simp [Workspace.whole_toJson w]

/-- A document of blocks with finite places is read as a workspace with the same selection and the
same blocks in the same order, up to their places. -/
theorem Workspace.ofDocument_toDocument (w : Workspace) (h : ∀ b ∈ w.blocks, b.Placed) :
    ∃ w', Workspace.ofDocument w.toDocument = .ok w' ∧ w'.selected = w.selected ∧
      w'.blocks.map Block.unplaced = w.blocks.map Block.unplaced := by
  obtain ⟨w', read, same⟩ := Workspace.read_toJson 121 h
  refine ⟨w', ?_, same⟩
  rw [Workspace.ofDocument_toDocument_eq]
  exact Workspace.read_document 126 read

/-- A workspace whose texts have to be escaped, with a repeated id and with the largest and the
least number as a place. -/
def Json.unusual : Workspace :=
  ⟨[⟨['b'], [], .lists, ['"', '\\', '\x00', '😀'], [], [], Binary64.largest, ⟨true, 1, by decide⟩,
      none, [⟨['i'], [], .any, some []⟩], [⟨['o'], [], .number⟩]⟩,
    ⟨['b'], ['\n'], .io, [], [], ['\x1f'], .zero true, .zero false, some ['/'], [], []⟩],
    some ['b']⟩

theorem Json.unusual_placed : ∀ b ∈ Json.unusual.blocks, b.Placed := by
  intro b hb
  simp only [Json.unusual, List.mem_cons, List.not_mem_nil, or_false] at hb
  rcases hb with rfl | rfl <;> exact ⟨by decide, by decide⟩

theorem Workspace.ofDocument_toDocument_unusual :
    (∀ b ∈ Json.unusual.blocks, b.Placed) ∧
      ∃ w', Workspace.ofDocument Json.unusual.toDocument = .ok w' ∧ w'.selected = some ['b'] ∧
        w'.blocks.map Block.unplaced = Json.unusual.blocks.map Block.unplaced :=
  ⟨Json.unusual_placed,
    Workspace.ofDocument_toDocument Json.unusual Json.unusual_placed⟩

end BlockCanvas
