import BlockCanvas.Proofs.Document.Json.ShortNumber
import BlockCanvas.Proofs.Document.Places

/-!
# Places that a document keeps

A number that is written in a document is read as a finite number of the same sign, zeros of both
signs and short numbers as themselves (`kept_reread`).  Long numbers may be read as a neighbour, so
that a workspace is read from its own document with places that are `Kept` but not always the same
(`not_ofDocument_toDocument_same`).  Main statement: `ofDocument_toDocument_kept`.
-/

namespace BlockCanvas

/-- What a document keeps of a number. -/
structure Json.Kept (x x' : Binary64) : Prop where
  finite : x'.isFinite
  negative : x'.negative = x.negative
  same : x.isZero ∨ x.Short → x' = x

namespace Json

theorem reread_zero {x : Binary64} (h : x.isZero) : reread x = x := by
  have plus : reread (.zero false) = .zero false := by decide +kernel
  have minus : reread (.zero true) = .zero true := by decide +kernel
  obtain ⟨negative, code, _⟩ := x
  obtain rfl : code = 0 := by simpa [Binary64.isZero] using h
  cases negative with
  | false => exact plus
  | true => exact minus

theorem kept_reread {x : Binary64} (h : x.isFinite) : Kept x (reread x) := by
  obtain ⟨a, read⟩ := Option.isSome_iff_exists.1 (Amount.ofNumeral?_numeral_isSome h)
  have value : reread x = a.toFloat := by simp only [reread, read]
  refine ⟨?_, ?_, ?_⟩
  · rw [value]
    exact Amount.isFinite_toFloat read
  · rw [Amount.ofNumeral?_numeral] at read
    obtain ⟨y, float, rfl⟩ := Option.map_eq_some_iff.1 read
    rw [value, ← layout.negative_numeral x]
    exact Amount.negative_of_float? float
  · rintro (zero | short)
    · exact reread_zero zero
    · rw [Amount.ofNumeral?_numeral_short short h] at read
      cases read
      exact value

end Json

open Json

/-! ### Workspaces -/

/-- What a document keeps of a block: everything but its places, and what it keeps of these. -/
structure Block.Kept (b b' : Block) : Prop where
  rest : b'.unplaced = b.unplaced
  x : Json.Kept b.x b'.x
  y : Json.Kept b.y b'.y

theorem Block.kept_reread {b : Block} (h : b.Placed) : Block.Kept b b.reread :=
  ⟨rfl, Json.kept_reread h.x, Json.kept_reread h.y⟩

/-- A workspace of finite places is read from its document with the selection and the blocks that
were written, in their order, as far as a document keeps a block. -/
theorem Workspace.ofDocument_toDocument_kept {w : Workspace} (h : ∀ b ∈ w.blocks, b.Placed) :
    ∃ w', Workspace.ofDocument w.toDocument = .ok w' ∧ w'.selected = w.selected ∧
      List.Forall₂ Block.Kept w.blocks w'.blocks := by
  refine ⟨w.reread, Workspace.ofDocument_toDocument_reread h, rfl, ?_⟩
  rw [Workspace.reread, List.forall₂_map_right_iff, List.forall₂_same]
  exact fun b hb => Block.kept_reread (h b hb)

/-- A block at a place. -/
def Block.placedAt (x y : Binary64) : Block := ⟨[], [], .io, [], [], [], x, y, none, [], []⟩

/-- One block at the height `-0.0`, at `1.4` from the left. -/
def Workspace.shortPlaces : Workspace :=
  ⟨[.placedAt (.ofBits 0x3FF6666666666666) (.zero true)], none⟩

theorem Binary64.short_fourteen_tenths : Binary64.Short (.ofBits 0x3FF6666666666666) where
  low := by decide +kernel
  high := by decide +kernel
  decimal := ⟨⟨14, -1⟩, by decide, by decide +kernel⟩

/-- Both numbers are read back as they are. -/
theorem Workspace.ofDocument_toDocument_shortPlaces :
    (∀ b ∈ shortPlaces.blocks, b.Placed) ∧
      Workspace.ofDocument shortPlaces.toDocument = .ok shortPlaces := by
  have placed : ∀ b ∈ shortPlaces.blocks, b.Placed := by decide
  obtain ⟨⟨blocks, selected⟩, read, rfl, kept⟩ := Workspace.ofDocument_toDocument_kept placed
  refine ⟨placed, ?_⟩
  rw [read]
  obtain ⟨b', rest, block, empty, rfl⟩ := List.forall₂_cons_left_iff.1 kept
  obtain rfl := List.forall₂_nil_left_iff.1 empty
  have x := block.x.same (.inr Binary64.short_fourteen_tenths)
  have y := block.y.same (.inl rfl)
  have others := block.rest
  obtain ⟨id, type, category, label, icon, color, _, _, template, inputs, outputs⟩ := b'
  cases x
  cases y
  cases others
  rfl

/-- One block at `9007199254740991.0`, at `1.4000000000000001` from the left.  A document says so,
and is read as `9007199254740990.0` and `1.4`. -/
def Workspace.longPlaces : Workspace :=
  ⟨[.placedAt (.ofBits 0x3FF6666666666667) (.ofBits 0x433FFFFFFFFFFFFF)], none⟩

/-- A document does not keep all finite places. -/
theorem Workspace.not_ofDocument_toDocument_same :
    ¬ ∀ w : Workspace, (∀ b ∈ w.blocks, b.Placed) →
      ∃ w', Workspace.ofDocument w.toDocument = .ok w' ∧
        w'.blocks.map Block.x = w.blocks.map Block.x ∧
          w'.blocks.map Block.y = w.blocks.map Block.y := by
  intro same
  have placed : ∀ b ∈ longPlaces.blocks, b.Placed := by decide
  obtain ⟨w', read, x, -⟩ := same longPlaces placed
  rw [Workspace.ofDocument_toDocument_reread placed] at read
  cases read
  have moved : longPlaces.reread.blocks.map Block.x ≠ longPlaces.blocks.map Block.x := by
    decide +kernel
  exact moved x

end BlockCanvas
