import Mathlib.Data.List.Forall2

/-!
# Results that may be errors

How a computation goes on after a part of it.  A list of computations has the results of all of
them, or fails as the first one does that fails: `exists_mapM_eq_error`.
-/

namespace BlockCanvas

theorem ok_bind {ε α β : Type} (a : α) (f : α → Except ε β) : (Except.ok a >>= f) = f a := rfl

theorem error_bind {ε α β : Type} (e : ε) (f : α → Except ε β) :
    (Except.error e >>= f) = .error e := rfl

theorem bind_eq_ok {ε α β : Type} {x : Except ε α} {f : α → Except ε β} {b : β} :
    (x >>= f) = .ok b ↔ ∃ a, x = .ok a ∧ f a = .ok b := by
  cases x with
  | ok a => simp [ok_bind]
  | error e => simp [error_bind]

theorem then_eq_ok {ε β : Type} {x : Except ε Unit} {y : Except ε β} {b : β} :
    (do x; y) = .ok b ↔ x = .ok () ∧ y = .ok b := by
  cases x with
  | ok a => simp [ok_bind]
  | error e => simp [error_bind]

theorem map_eq_ok {ε α β : Type} {f : α → β} {x : Except ε α} {b : β} :
    x.map f = .ok b ↔ ∃ a, x = .ok a ∧ f a = b := by
  cases x with
  | ok a => simp [Except.map]
  | error e => simp [Except.map]

theorem mapError_bind {ε ε' α β : Type} (g : ε → ε') (x : Except ε α) (f : α → Except ε β) :
    (x >>= f).mapError g = x.mapError g >>= fun a => (f a).mapError g := by
  cases x <;> rfl

/-! ### Lists of computations -/

section

variable {ε α β : Type} {f : α → Except ε β} {as : List α}

theorem mapM_eq_ok_of_forall₂ {bs : List β} (h : List.Forall₂ (fun a b => f a = .ok b) as bs) :
    as.mapM f = .ok bs := by
  induction h with
  | nil => rfl
  | cons head _ ih =>
    rw [List.mapM_cons, head, ok_bind, ih, ok_bind]
    rfl

/-- Each result is the result of one of the computations. -/
theorem exists_of_mem_of_mapM_eq_ok {bs : List β} {b : β} (h : as.mapM f = .ok bs)
    (member : b ∈ bs) : ∃ a ∈ as, f a = .ok b := by
  induction as generalizing bs with
  | nil =>
    cases h
    cases member
  | cons a as ih =>
    rw [List.mapM_cons] at h
    obtain ⟨first, here, h⟩ := bind_eq_ok.1 h
    obtain ⟨rest, later, h⟩ := bind_eq_ok.1 h
    cases h
    rcases List.mem_cons.1 member with rfl | member
    · exact ⟨a, List.mem_cons_self, here⟩
    · obtain ⟨a', found, value⟩ := ih later member
      exact ⟨a', List.mem_cons_of_mem a found, value⟩

theorem exists_of_mapM_eq_error {e : ε} (h : as.mapM f = .error e) : ∃ a ∈ as, f a = .error e := by
  induction as with
  | nil => cases h
  | cons a as ih =>
    rw [List.mapM_cons] at h
    cases first : f a with
    | error e' =>
      rw [first, error_bind] at h
      cases h
      exact ⟨a, List.mem_cons_self, first⟩
    | ok b =>
      rw [first, ok_bind] at h
      cases rest : as.mapM f with
      | error e' =>
        rw [rest, error_bind] at h
        cases h
        obtain ⟨a', found, value⟩ := ih rest
        exact ⟨a', List.mem_cons_of_mem a found, value⟩
      | ok bs =>
        rw [rest, ok_bind] at h
        cases h

theorem exists_mapM_eq_error (h : ∃ a ∈ as, ∃ e, f a = .error e) :
    ∃ before a after e, as = before ++ a :: after ∧ (∀ x ∈ before, ∃ y, f x = .ok y) ∧
      f a = .error e ∧ as.mapM f = .error e := by
  induction as with
  | nil =>
    obtain ⟨a, member, -⟩ := h
    cases member
  | cons a as ih =>
    cases first : f a with
    | error e =>
      refine ⟨[], a, as, e, rfl, (fun _ h => nomatch h), first, ?_⟩
      rw [List.mapM_cons, first, error_bind]
    | ok y =>
      have later : ∃ a ∈ as, ∃ e, f a = .error e := by
        obtain ⟨a', member, e, fails⟩ := h
        rcases List.mem_cons.1 member with rfl | member
        · cases first.symm.trans fails
        · exact ⟨a', member, e, fails⟩
      obtain ⟨before, a', after, e, rfl, done, fails, all⟩ := ih later
      refine ⟨a :: before, a', after, e, rfl, ?_, fails, ?_⟩
      · exact List.forall_mem_cons.2 ⟨⟨y, first⟩, done⟩
      · rw [List.mapM_cons, first, ok_bind, all, error_bind]

end

end BlockCanvas
