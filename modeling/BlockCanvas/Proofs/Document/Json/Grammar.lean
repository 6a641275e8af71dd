import BlockCanvas.Proofs.Document.Json.Scan
import BlockCanvas.Proofs.Document.Json.Tree

/-!
# Texts of trees

The texts of a tree are the texts of its tokens, whatever the white space between these
(`Json.WrittenAs`).  They are exactly the texts that are read as the tree up to their end:
`writtenAs_iff_parse`.
-/

namespace BlockCanvas
namespace Json

/-- The texts of a tree that breaks off nowhere. -/
def WrittenAs (j : Json) (s : Text) : Prop := j.Flawless ∧ Written (spell j) s

/-! ### Tokens of a tree -/

mutual

theorem sound_spell : ∀ {j : Json}, j.Flawless → ∀ t ∈ spell j, t.Sound
  | .null, _ | .bool _, _ | .number _, _ => by simp [spell, Token.Sound]
  | .string s, h => by
    simp only [spell, List.forall_mem_singleton]
    exact h
  | .array is, h => by
    have items : ∀ t ∈ spellItems is, t.Sound := sound_spellItems h
    simp only [spell, List.cons_append, List.forall_mem_cons, List.forall_mem_append]
    exact ⟨trivial, items, trivial, List.forall_mem_nil _⟩
  | .object ms, h => by
    have members : ∀ t ∈ spellMembers ms, t.Sound := sound_spellMembers h
    simp only [spell, List.cons_append, List.forall_mem_cons, List.forall_mem_append]
    exact ⟨trivial, members, trivial, List.forall_mem_nil _⟩

theorem sound_spellItems : ∀ {is : Items}, is.Flawless → ∀ t ∈ spellItems is, t.Sound
  | .close, _ => List.forall_mem_nil _
  | .cons head .close, h => by
    rw [spellItems]
    exact sound_spell h.1
    all_goals simp
  | .cons head (.cons next tail), h => by
    simp only [spellItems, List.forall_mem_cons, List.forall_mem_append]
    exact ⟨sound_spell h.1, trivial, sound_spellItems h.2⟩

theorem sound_spellMembers : ∀ {ms : Members}, ms.Flawless → ∀ t ∈ spellMembers ms, t.Sound
  | .close, _ => List.forall_mem_nil _
  | .cons key v .close, h => by
    simp only [spellMembers, List.forall_mem_cons]
    exact ⟨h.1, trivial, sound_spell h.2.1⟩
  | .cons key v (.cons next w tail), h => by
    simp only [spellMembers, List.cons_append, List.forall_mem_cons, List.forall_mem_append]
    exact ⟨h.1, trivial, sound_spell h.2.1, trivial, sound_spellMembers h.2.2⟩

end

/-! ### Trees that are read -/

/-- Items that are read are not none at all. -/
theorem items_ne_close (fuel : Nat) (ts : List Token) : (items fuel ts).1 ≠ .close := by
  rw [items.eq_def]
  split
  · simp
  · split
    split <;> simp

theorem members_ne_close (fuel : Nat) (key : Literal) (ts : List Token) :
    (members fuel key ts).1 ≠ .close := by
  rw [members.eq_def]
  split
  · simp
  · split
    · split
      split <;> simp
    · simp
    · simp

theorem spellItems_cons (head : Json) {tail : Items} (more : tail ≠ .close)
    (whole : tail.Flawless) :
    spellItems (.cons head tail) = spell head ++ .comma :: spellItems tail := by
  cases tail with
  | close => exact absurd rfl more
  | broken f => exact whole.elim
  | cons next tail => rw [spellItems]

theorem spellMembers_cons (key : Literal) (v : Json) {tail : Members} (more : tail ≠ .close)
    (whole : tail.Flawless) :
    spellMembers (.cons key v tail) =
      .string key :: .colon :: spell v ++ .comma :: spellMembers tail := by
  cases tail with
  | close => exact absurd rfl more
  | broken f => exact whole.elim
  | dangling f => exact whole.elim
  | cons next w tail => rw [spellMembers]

mutual

theorem value_spelled : ∀ {fuel : Nat} {ts rest : List Token} {j : Json},
    value fuel ts = (j, rest) → j.Flawless → ts = spell j ++ rest
  | 0, _, _, _, h, whole | _ + 1, [], _, _, h, whole => by
    cases h
    exact whole.elim
  | fuel + 1, t :: ts, rest, j, h, whole => by
    cases t with
    | openArray =>
      cases ts with
      | nil => cases h; exact whole.elim
      | cons t ts =>
        by_cases close : t = .closeArray
        · subst close
          cases h
          rfl
        · rw [value_openArray close] at h
          cases h
          have read := items_spelled rfl whole
          simp only [spell, List.cons_append, List.append_assoc, List.nil_append, ← read]
    | openObject =>
      cases ts with
      | nil => cases h; exact whole.elim
      | cons t ts =>
        cases t with
        | closeObject => cases h; rfl
        | string key =>
          cases h
          have read := members_spelled rfl whole
          simp only [spell, List.cons_append, List.append_assoc, List.nil_append, ← read]
        | _ => cases h; exact whole.elim
    | null | bool | number | string => cases h; rfl
    | _ => cases h; exact whole.elim

theorem items_spelled : ∀ {fuel : Nat} {ts rest : List Token} {is : Items},
    items fuel ts = (is, rest) → is.Flawless → ts = spellItems is ++ .closeArray :: rest
  | 0, _, _, _, h, whole => by
    cases h
    exact whole.elim
  | fuel + 1, ts, rest, is, h, whole => by
    rw [items] at h
    generalize first : value fuel ts = read at h
    obtain ⟨head, after⟩ := read
    dsimp only at h
    split at h
    · cases h
      rw [value_spelled first whole.1, spellItems]
      all_goals simp
    · next after =>
      cases h
      have later := items_spelled rfl whole.2
      rw [value_spelled first whole.1, spellItems_cons head (items_ne_close fuel after) whole.2,
        List.append_assoc, List.cons_append, ← later]
    · cases h
      exact whole.2.elim

theorem members_spelled : ∀ {fuel : Nat} {key : Literal} {ts rest : List Token} {ms : Members},
    members fuel key ts = (ms, rest) → ms.Flawless →
      .string key :: ts = spellMembers ms ++ .closeObject :: rest
  | 0, _, _, _, _, h, whole => by
    cases h
    exact whole.elim
  | fuel + 1, key, [], _, _, h, whole => by
    cases h
    exact whole.2.1.elim
  | fuel + 1, key, t :: ts, rest, ms, h, whole => by
    cases t with
    | colon =>
      rw [members] at h
      generalize first : value fuel ts = read at h
      obtain ⟨v, after⟩ := read
      dsimp only at h
      split at h
      · cases h
        rw [value_spelled first whole.2.1]
        rfl
      · next next after =>
        cases h
        have later := members_spelled rfl whole.2.2
        rw [value_spelled first whole.2.1,
          spellMembers_cons key v (members_ne_close fuel next after) whole.2.2]
        simp only [List.cons_append, List.append_assoc, ← later]
      · cases h
        exact whole.2.2.elim
      · cases h
        exact whole.2.2.elim
    | _ =>
      cases h
      exact whole.2.1.elim

end

/-! ### Texts that are read -/

/-- The texts of a tree that breaks off nowhere are those that have its tokens. -/
theorem writtenAs_iff_tokens {j : Json} {s : Text} (whole : j.Flawless) :
    j.WrittenAs s ↔ tokens s = spell j := by
  constructor
  · rintro ⟨-, written⟩
    exact tokens_written written
  · intro spelled
    have written := written_tokens s
    rw [spelled] at written
    exact ⟨whole, written (sound_spell whole)⟩

/-- The texts of a tree that breaks off nowhere are those that are read as the tree up to their
end. -/
theorem writtenAs_iff_parse {j : Json} {s : Text} (whole : j.Flawless) :
    j.WrittenAs s ↔ parse s = (j, true) := by
  rw [writtenAs_iff_tokens whole]
  constructor
  · intro spelled
    have read := value_spell j (2 * (spell j).length + 1) [] whole (by omega)
    rw [List.append_nil] at read
    rw [parse, spelled, read]
    rfl
  · intro parsed
    have all : value (2 * (tokens s).length + 1) (tokens s) = (j, []) := by
      rw [parse] at parsed
      generalize value (2 * (tokens s).length + 1) (tokens s) = read at parsed
      obtain ⟨i, rest⟩ := read
      simp only [Prod.mk.injEq, List.isEmpty_iff] at parsed
      rw [parsed.1, parsed.2]
    have spelled := value_spelled all whole
    rwa [List.append_nil] at spelled

/-- A text has at most one tree. -/
theorem WrittenAs.unique {i j : Json} {s : Text} (hi : i.WrittenAs s) (hj : j.WrittenAs s) :
    i = j := by
  have read := ((writtenAs_iff_parse hi.1).1 hi).symm.trans ((writtenAs_iff_parse hj.1).1 hj)
  exact congrArg Prod.fst read

end Json
end BlockCanvas
