import BlockCanvas.Block.Palette
import BlockCanvas.Proofs.Text.LowerCase

/-!
# The search for templates

A query finds a template if its lower-case form stands in that of one of three texts.  So less of a
query finds whatever the query finds, and a template is found by what is written in it, except that
capital sigmas have two lower-case forms: `isFoundBy_part`.
-/

namespace BlockCanvas
namespace Template

open Text (KeepsSigmas toLower)

variable {t : Template} {a b p q s : Text}

/-- The texts of a template that a query is looked for in. -/
def searched (t : Template) : List Text := [t.type, t.label, t.category.heading]

theorem isFoundBy_iff : t.isFoundBy q ↔ ∃ s ∈ t.searched, toLower q <:+: toLower s := by
  rw [isFoundBy, Bool.or_eq_true, List.any_eq_true]
  simp only [Text.contains_iff]
  refine or_iff_right_of_imp fun empty => ?_
  rw [List.isEmpty_iff.1 empty]
  exact ⟨t.type, List.mem_cons_self, List.nil_infix⟩

theorem isFoundBy_of_keepsSigmas (keeps : KeepsSigmas a p b) (found : t.isFoundBy (a ++ p ++ b)) :
    t.isFoundBy p := by
  obtain ⟨s, member, inside⟩ := isFoundBy_iff.1 found
  exact isFoundBy_iff.2 ⟨s, member, keeps.infix.trans inside⟩

/-- A text of a template finds it. -/
theorem isFoundBy_of_mem (member : s ∈ t.searched) : t.isFoundBy s :=
  isFoundBy_iff.2 ⟨s, member, List.infix_rfl⟩

/-- The template says nothing in which a sigma stands, however it is written. -/
def NoSigma (t : Template) : Prop := ∀ s ∈ t.searched, 'σ' ∉ toLower s ∧ 'ς' ∉ toLower s

theorem NoSigma.notMem (plain : t.NoSigma) (found : t.isFoundBy q) : 'Σ' ∉ q := by
  obtain ⟨s, member, inside⟩ := isFoundBy_iff.1 found
  obtain ⟨inner, final⟩ := plain s member
  intro sigma
  rcases Text.sigma_mem_toLower sigma with h | h
  · exact inner (inside.subset h)
  · exact final (inside.subset h)

/-- Where no sigmas stand they make no difference. -/
theorem NoSigma.isFoundBy (plain : t.NoSigma) (found : t.isFoundBy (a ++ p ++ b)) :
    t.isFoundBy p := by
  have none := plain.notMem found
  simp only [List.mem_append, not_or] at none
  exact isFoundBy_of_keepsSigmas (Text.keepsSigmas_of_notMem none.1.2) found

theorem noSigma_of_mem_templates : ∀ t ∈ Palette.templates, t.NoSigma := by
  have ascii : Palette.templates.all fun t => t.searched.all fun s => s.all (·.toNat < 128) := by
    decide +kernel
  simp only [List.all_eq_true, decide_eq_true_eq] at ascii
  intro t member s text
  exact Text.sigma_notMem_toLower (ascii t member s text)

/-- A template with nothing but a label. -/
def labelled (label : Text) : Template := ⟨[], .io, label, [], [], none, [], []⟩

theorem not_isFoundBy_labelled (sigma : 'Σ' ∈ p) (other : ¬ toLower p <:+: toLower s) :
    ¬ (labelled s).isFoundBy p := by
  have bare : (labelled []).NoSigma := by
    unfold NoSigma
    decide +kernel
  intro found
  obtain ⟨text, member, inside⟩ := isFoundBy_iff.1 found
  have text_ne : text ≠ s := by
    rintro rfl
    exact other inside
  have elsewhere : text ∈ (labelled []).searched := by
    simp only [searched, labelled, List.mem_cons] at member ⊢
    tauto
  exact bare.notMem (isFoundBy_iff.2 ⟨text, elsewhere, inside⟩) sigma

/-- If a letter can change a sigma of the query, then some template is found by a label in which
the query stands and not by the query. -/
theorem exists_label (h : ¬ KeepsSigmas a p b) :
    ∃ (t : Template) (x y : Text), x ++ p ++ y ∈ t.searched ∧ ¬ t.isFoundBy p := by
  have sigma : 'Σ' ∈ p := by
    by_contra none
    exact h (Text.keepsSigmas_of_notMem none)
  have own (s : Text) : s ∈ (labelled s).searched := List.mem_cons_of_mem _ List.mem_cons_self
  rcases Text.not_infix_of_not_keepsSigmas h with behind | before
  · exact ⟨labelled (p ++ ['Α']), [], ['Α'], own _, not_isFoundBy_labelled sigma behind⟩
  · refine ⟨labelled ('Α' :: p), ['Α'], [], ?_, not_isFoundBy_labelled sigma before⟩
    rw [List.append_nil]
    exact own _

/-- A part of a query finds what the query finds, and a part of what is written in a template finds
the template, if its capital sigmas end words in the whole where they do in the part alone.  For a
part whose sigmas depend on what stands around it neither is so for all templates.  In the palette
no sigmas stand, and there both hold of all parts. -/
theorem isFoundBy_part (p : Text) :
    (∀ (t : Template) (a b : Text), KeepsSigmas a p b →
      (t.isFoundBy (a ++ p ++ b) → t.isFoundBy p) ∧ (a ++ p ++ b ∈ t.searched → t.isFoundBy p)) ∧
    ((∀ (t : Template) (a b : Text), t.isFoundBy (a ++ p ++ b) → t.isFoundBy p) ↔
      ∀ a b, KeepsSigmas a p b) ∧
    ((∀ (t : Template) (a b : Text), a ++ p ++ b ∈ t.searched → t.isFoundBy p) ↔
      ∀ a b, KeepsSigmas a p b) ∧
    ∀ t ∈ Palette.templates, ∀ a b : Text,
      (t.isFoundBy (a ++ p ++ b) → t.isFoundBy p) ∧ (a ++ p ++ b ∈ t.searched → t.isFoundBy p) := by
  refine ⟨fun t a b keeps => ⟨isFoundBy_of_keepsSigmas keeps, fun member =>
    isFoundBy_of_keepsSigmas keeps (isFoundBy_of_mem member)⟩, ⟨?_, ?_⟩, ⟨?_, ?_⟩, ?_⟩
  · intro narrows a b
    by_contra changes
    obtain ⟨t, x, y, member, missed⟩ := exists_label changes
    exact missed (narrows t x y (isFoundBy_of_mem member))
  · exact fun keeps t a b => isFoundBy_of_keepsSigmas (keeps a b)
  · intro finds a b
    by_contra changes
    obtain ⟨t, x, y, member, missed⟩ := exists_label changes
    exact missed (finds t x y member)
  · exact fun keeps t a b member => isFoundBy_of_keepsSigmas (keeps a b) (isFoundBy_of_mem member)
  · intro t member a b
    have plain := noSigma_of_mem_templates t member
    exact ⟨plain.isFoundBy, fun written => plain.isFoundBy (isFoundBy_of_mem written)⟩

/-- A word with a sigma at its end, and the part of it that is left after its first letter. -/
theorem isFoundBy_part_street :
    KeepsSigmas "Ο".toList "ΔΟΣ".toList [] ∧
      "Ο".toList ++ "ΔΟΣ".toList ++ [] ∈ (labelled "ΟΔΟΣ".toList).searched ∧
      (labelled "ΟΔΟΣ".toList).isFoundBy "ΔΟΣ".toList := by
  have keeps : KeepsSigmas "Ο".toList "ΔΟΣ".toList [] := by decide +kernel
  have written : "Ο".toList ++ "ΔΟΣ".toList ++ [] ∈ (labelled "ΟΔΟΣ".toList).searched := by
    decide +kernel
  exact ⟨keeps, written, ((isFoundBy_part _).1 _ _ _ keeps).2 written⟩

/-- Alone the sigma of the part ends a word, and in the whole another letter follows it. -/
theorem not_isFoundBy_part :
    "ΑΣΑ".toList ∈ (labelled "ΑΣΑ".toList).searched ∧
      (labelled "ΑΣΑ".toList).isFoundBy "ΑΣΑ".toList = true ∧
      "ΑΣ".toList <:+: "ΑΣΑ".toList ∧ (labelled "ΑΣΑ".toList).isFoundBy "ΑΣ".toList = false := by
  decide +kernel

end Template
end BlockCanvas
