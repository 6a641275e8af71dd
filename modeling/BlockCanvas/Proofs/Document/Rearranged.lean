import BlockCanvas.Document.Blocks
import BlockCanvas.Proofs.Document.Json.Rearranged

/-!
# Rearranged documents

What a JSON document of a workspace may be turned into without a change to the workspace that is
read from it: `Workspace.Rearranged`.  Main statement: `ofDocument_of_rearranged`.
-/

namespace BlockCanvas

open Json

/-! ### Slots -/

/-- The string of a text, in any spelling. -/
def Json.IsText (s : String) (j : Json) : Prop := ∃ l, j = .string l ∧ l.text = .ok s.toList

/-- The kind of a port may be left out if it is any kind. -/
def Input.slots : List Slot :=
  [.fixed "id" Eq, .fixed "label" Eq, .optional "type" Eq (Json.IsText "any"),
    .optional "value" Eq (· = .null)]

def Output.slots : List Slot :=
  [.fixed "id" Eq, .fixed "label" Eq, .optional "type" Eq (Json.IsText "any")]

def Block.slots : List Slot :=
  [.fixed "id" Eq, .fixed "type" Eq, .fixed "category" Eq, .fixed "label" Eq, .fixed "icon" Eq,
    .fixed "color" Eq, .fixed "x" Eq, .fixed "y" Eq, .optional "template" Eq (· = .null),
    .optional "inputs" (ItemsRearranged (Json.Rearranged Input.slots)) (· = .ofList []),
    .optional "outputs" (ItemsRearranged (Json.Rearranged Output.slots)) (· = .ofList [])]

def Workspace.slots : List Slot :=
  [.fixed "blocks" (ItemsRearranged (Json.Rearranged Block.slots)),
    .optional "selected_block_id" Eq (· = .null)]

def Workspace.documentSlots : List Slot := [.fixed "workspace" (Json.Rearranged Workspace.slots)]

/-- The tree of one text, rearranged, is the tree of the other one.  White space is no part of a
tree, so it may be changed as well. -/
def Workspace.Rearranged (t t' : Text) : Prop :=
  ∃ j j' : Json, j.WrittenAs t ∧ Json.Rearranged Workspace.documentSlots j j' ∧ j'.WrittenAs t'

/-! ### Ports -/

theorem PortKind.read_any {room : Nat} {j : Json} {k : PortKind} (any : j.IsText "any")
    (h : PortKind.reader room j = .ok k) : k = .any := by
  obtain ⟨l, rfl, text⟩ := any
  obtain ⟨name, known, h⟩ := bind_eq_ok.1 h
  obtain rfl := Except.ok.inj (text.symm.trans (text_of_knownName known))
  cases h
  rfl

theorem Input.thorough : Thorough Input.record.read := by
  apply thorough_record
  unfold Input.record
  simp only [List.forall_mem_cons]
  exact ⟨thorough_text.field, thorough_text.field, thorough_choice.field,
    thorough_text.nullable.field, List.forall_mem_nil _⟩

theorem Input.orderly : Orderly Input.record Input.slots where
  fits :=
    .cons (fits_fixed (respects_eq _)) <|
    .cons (fits_fixed (respects_eq _)) <|
    .cons (fits_optional .any (respects_eq _) PortKind.read_any (by rintro ⟨⟩ ⟨⟩; rfl)) <|
    .cons (fits_nullable (by rintro ⟨⟩ ⟨⟩; rfl)) .nil
  distinct := by decide
  stores := by
    unfold Input.record
    simp
  independent := by
    unfold Input.record
    simp [Independent]

theorem Output.thorough : Thorough Output.record.read := by
  apply thorough_record
  unfold Output.record
  simp only [List.forall_mem_cons]
  exact ⟨thorough_text.field, thorough_text.field, thorough_choice.field, List.forall_mem_nil _⟩

theorem Output.orderly : Orderly Output.record Output.slots where
  fits :=
    .cons (fits_fixed (respects_eq _)) <|
    .cons (fits_fixed (respects_eq _)) <|
    .cons (fits_optional .any (respects_eq _) PortKind.read_any (by rintro ⟨⟩ ⟨⟩; rfl)) .nil
  distinct := by decide
  stores := by
    unfold Output.record
    simp
  independent := by
    unfold Output.record
    simp [Independent]

/-! ### Blocks -/

theorem Block.thorough : Thorough Block.record.read := by
  apply thorough_record
  unfold Block.record
  simp only [List.forall_mem_cons]
  exact ⟨thorough_text.field, thorough_text.field, thorough_choice.field, thorough_text.field,
    thorough_text.field, thorough_text.field, thorough_float.field, thorough_float.field,
    thorough_text.nullable.field, Input.thorough.list.field, Output.thorough.list.field,
    List.forall_mem_nil _⟩

theorem Block.orderly : Orderly Block.record Block.slots where
  fits :=
    .cons (fits_fixed (respects_eq _)) <|
    .cons (fits_fixed (respects_eq _)) <|
    .cons (fits_fixed (respects_eq _)) <|
    .cons (fits_fixed (respects_eq _)) <|
    .cons (fits_fixed (respects_eq _)) <|
    .cons (fits_fixed (respects_eq _)) <|
    .cons (fits_fixed (respects_eq _)) <|
    .cons (fits_fixed (respects_eq _)) <|
    .cons (fits_nullable (by rintro ⟨⟩ ⟨⟩; rfl)) <|
    .cons (fits_list Input.orderly.respects (by rintro ⟨⟩ ⟨⟩; rfl)) <|
    .cons (fits_list Output.orderly.respects (by rintro ⟨⟩ ⟨⟩; rfl)) .nil
  distinct := by decide
  stores := by
    unfold Block.record
    simp
  independent := by
    unfold Block.record
    simp [Independent]

/-! ### Workspaces -/

theorem Workspace.thorough : Thorough Workspace.record.read := by
  apply thorough_record
  unfold Workspace.record
  simp only [List.forall_mem_cons]
  exact ⟨Block.thorough.list.field, thorough_text.nullable.field, List.forall_mem_nil _⟩

theorem Workspace.orderly : Orderly Workspace.record Workspace.slots where
  fits :=
    .cons (fits_fixed Block.orderly.respects.list) <|
    .cons (fits_nullable (by rintro ⟨⟩ ⟨⟩; rfl)) .nil
  distinct := by decide
  stores := by
    unfold Workspace.record
    simp
  independent := by
    unfold Workspace.record
    simp [Independent]

namespace Json

/-- A member of an object. -/
def named (name : String) (v : Json) : Literal × Json := (.ofText name.toList, v)

/-- The members of the block in both documents. -/
def kept : List (Literal × Json) :=
  [("id", "b"), ("type", "say"), ("category", "io"), ("label", "Say"), ("icon", ""),
    ("color", "red")].map (fun m => named m.1 (ofText m.2.toList)) ++
  [named "x" (.number ⟨false, ['1'], some ['5'], none⟩),
    named "y" (.number ⟨false, ['0'], none, none⟩)]

end Json

end BlockCanvas
