import BlockCanvas.Program.Action

/-!
# Properties of actions

Rules for what holds of an action when it holds of its parts.  `Keeps I Q` is an invariant of the
bindings with a condition on the result, `Gives Q` says that no error stops the action, `Silent`
that it prints nothing, and `FaultsFirst` that an error stops it only before it prints.  Another
kind of error makes no difference to the parts: `mapError_bind`.

Main statement: `forEach_error`, an error in a list of actions is the error of one of them, after
all those before it.
-/

namespace BlockCanvas
namespace Action

variable {ε ε' α β : Type}

section

variable {x : Action ε α} {f : α → Action ε β} {b b' : Bindings} {shown : List Text}

theorem on_bind_of_on_ok {a : α} (h : x.on b = ⟨b', shown, .ok a⟩) :
    (x >>= f).on b =
      ⟨((f a).on b').bindings, shown ++ ((f a).on b').printed, ((f a).on b').result⟩ := by
  rw [on_bind_of_ok (congrArg Effect.result h), h]

theorem on_bind_of_on_error {e : ε} (h : x.on b = ⟨b', shown, .error e⟩) :
    (x >>= f).on b = ⟨b', shown, .error e⟩ := by
  rw [on_bind_of_error (congrArg Effect.result h), h]

end

/-! ### Other kinds of errors -/

section

variable (g : ε → ε')

@[simp]
theorem mapError_pure (a : α) : (pure a : Action ε α).mapError g = pure a := rfl

@[simp]
theorem mapError_fail (e : ε) : (fail e : Action ε α).mapError g = fail (g e) := rfl

@[simp]
theorem mapError_compute (f : Bindings → Except ε α) :
    (compute f).mapError g = compute fun b => (f b).mapError g := rfl

@[simp]
theorem mapError_print (line : Text) : (print line : Action ε Unit).mapError g = print line := rfl

@[simp]
theorem mapError_store (name : Text) (v : Value) :
    (store name v : Action ε Unit).mapError g = store name v := rfl

@[simp]
theorem mapError_bind (x : Action ε α) (f : α → Action ε β) :
    (x >>= f).mapError g = x.mapError g >>= fun a => (f a).mapError g := by
  ext b
  cases h : (x.on b).result with
  | ok a => rw [on_mapError, on_bind_of_ok h, on_bind_of_ok (by rw [on_mapError, h]; rfl)]; rfl
  | error e =>
    rw [on_mapError, on_bind_of_error h, on_bind_of_error (by rw [on_mapError, h]; rfl)]
    rfl

theorem mapError_mapError {ε'' : Type} (g' : ε' → ε'') (x : Action ε α) :
    (x.mapError g).mapError g' = x.mapError (g' ∘ g) := by
  ext b
  simp only [on_mapError]
  cases (x.on b).result <;> rfl

@[simp]
theorem mapError_forEach (f : α → Action ε Unit) (as : List α) :
    (forEach f as).mapError g = forEach (fun a => (f a).mapError g) as := by
  induction as with
  | nil => rfl
  | cons a as ih => rw [forEach_cons, mapError_bind, ih, forEach_cons]

@[simp]
theorem mapError_mapM (f : α → Action ε β) (as : List α) :
    (as.mapM f).mapError g = as.mapM fun a => (f a).mapError g := by
  induction as with
  | nil => rfl
  | cons a as ih =>
    simp only [List.mapM_cons, mapError_bind, ih, mapError_pure]

end

/-! ### Invariants -/

/-- From bindings that satisfy `I` the action goes to such bindings, also when an error stops it,
and its result satisfies `Q`. -/
def Keeps (I : Bindings → Prop) (Q : α → Prop) (x : Action ε α) : Prop :=
  ∀ b, I b → I (x.on b).bindings ∧ ∀ a, (x.on b).result = .ok a → Q a

section

variable {I : Bindings → Prop} {Q : α → Prop} {R : β → Prop}

theorem keeps_pure {a : α} (h : Q a) : Keeps I Q (pure a : Action ε α) := by
  intro b hb
  refine ⟨hb, ?_⟩
  rintro _ ⟨⟩
  exact h

theorem keeps_fail (e : ε) : Keeps I Q (fail e : Action ε α) := by
  intro b hb
  refine ⟨hb, ?_⟩
  rintro _ ⟨⟩

theorem keeps_compute {f : Bindings → Except ε α} (h : ∀ b, I b → ∀ a, f b = .ok a → Q a) :
    Keeps I Q (compute f) :=
  fun b hb => ⟨hb, h b hb⟩

theorem keeps_print (line : Text) : Keeps I (fun _ => True) (print line : Action ε Unit) :=
  fun _ hb => ⟨hb, fun _ _ => trivial⟩

theorem keeps_store {name : Text} {v : Value} (h : ∀ b, I b → I (b.bind name v)) :
    Keeps I (fun _ => True) (store name v : Action ε Unit) :=
  fun b hb => ⟨h b hb, fun _ _ => trivial⟩

theorem Keeps.bind {x : Action ε α} {f : α → Action ε β} (hx : Keeps I Q x)
    (hf : ∀ a, Q a → Keeps I R (f a)) : Keeps I R (x >>= f) := by
  intro b hb
  obtain ⟨kept, result⟩ := hx b hb
  cases h : (x.on b).result with
  | ok a =>
    rw [on_bind_of_ok h]
    exact hf a (result a h) _ kept
  | error e =>
    rw [on_bind_of_error h]
    refine ⟨kept, ?_⟩
    rintro _ ⟨⟩

theorem keeps_forEach {f : α → Action ε Unit} {as : List α}
    (h : ∀ a ∈ as, Keeps I (fun _ => True) (f a)) : Keeps I (fun _ => True) (forEach f as) := by
  induction as with
  | nil => exact keeps_pure trivial
  | cons a as ih =>
    rw [forEach_cons]
    apply (h a List.mem_cons_self).bind
    intro _ _
    exact ih fun a' ha => h a' (List.mem_cons_of_mem a ha)

theorem keeps_mapM {f : α → Action ε β} {as : List α} (h : ∀ a ∈ as, Keeps I R (f a)) :
    Keeps I (fun _ => True) (as.mapM f) := by
  induction as with
  | nil =>
    rw [List.mapM_nil]
    exact keeps_pure trivial
  | cons a as ih =>
    rw [List.mapM_cons]
    apply (h a List.mem_cons_self).bind
    intro _ _
    exact (ih fun a' ha => h a' (List.mem_cons_of_mem a ha)).bind fun _ _ => keeps_pure trivial

end

/-! ### Actions that no error stops -/

/-- The action comes to a result, which satisfies `Q`. -/
def Gives (Q : α → Prop) (x : Action ε α) : Prop := ∀ b, ∃ a, (x.on b).result = .ok a ∧ Q a

theorem gives_pure {Q : α → Prop} {a : α} (h : Q a) : Gives Q (pure a : Action ε α) :=
  fun _ => ⟨a, rfl, h⟩

theorem gives_print (line : Text) : Gives (fun _ => True) (print line : Action ε Unit) :=
  fun _ => ⟨(), rfl, trivial⟩

theorem gives_store (name : Text) (v : Value) :
    Gives (fun _ => True) (store name v : Action ε Unit) :=
  fun _ => ⟨(), rfl, trivial⟩

theorem Gives.bind {Q : α → Prop} {R : β → Prop} {x : Action ε α} {f : α → Action ε β}
    (hx : Gives Q x) (hf : ∀ a, Q a → Gives R (f a)) : Gives R (x >>= f) := by
  intro b
  obtain ⟨a, ha, hQ⟩ := hx b
  rw [on_bind_of_ok ha]
  exact hf a hQ _

theorem gives_forEach {f : α → Action ε Unit} (h : ∀ a, Gives (fun _ => True) (f a))
    (as : List α) : Gives (fun _ => True) (forEach f as) := by
  induction as with
  | nil => exact gives_pure trivial
  | cons a as ih =>
    rw [forEach_cons]
    exact (h a).bind fun _ _ => ih

/-! ### What is printed before an error -/

/-- The action prints nothing. -/
def Silent (x : Action ε α) : Prop := ∀ b, (x.on b).printed = []

/-- An error stops the action only before it prints. -/
def FaultsFirst (x : Action ε α) : Prop :=
  ∀ b e, (x.on b).result = .error e → (x.on b).printed = []

theorem silent_pure (a : α) : Silent (pure a : Action ε α) := fun _ => rfl

theorem silent_compute (f : Bindings → Except ε α) : Silent (compute f) := fun _ => rfl

theorem silent_store (name : Text) (v : Value) : Silent (store name v : Action ε Unit) :=
  fun _ => rfl

theorem Silent.bind {x : Action ε α} {f : α → Action ε β} (hx : Silent x)
    (hf : ∀ a, Silent (f a)) : Silent (x >>= f) := by
  intro b
  cases h : (x.on b).result with
  | ok a =>
    rw [on_bind_of_ok h]
    simp only [hx b, hf a _, List.append_nil]
  | error e =>
    rw [on_bind_of_error h]
    exact hx b

theorem silent_mapM {f : α → Action ε β} (h : ∀ a, Silent (f a)) (as : List α) :
    Silent (as.mapM f) := by
  induction as with
  | nil =>
    rw [List.mapM_nil]
    exact silent_pure _
  | cons a as ih =>
    rw [List.mapM_cons]
    apply (h a).bind
    intro _
    exact ih.bind fun _ => silent_pure _

theorem faultsFirst_fail (e : ε) : FaultsFirst (fail e : Action ε α) := fun _ _ _ => rfl

theorem Gives.faultsFirst {Q : α → Prop} {x : Action ε α} (h : Gives Q x) : FaultsFirst x := by
  intro b e he
  obtain ⟨a, ha, -⟩ := h b
  rw [ha] at he
  cases he

theorem Silent.bind_faultsFirst {x : Action ε α} {f : α → Action ε β} (hx : Silent x)
    (hf : ∀ a, FaultsFirst (f a)) : FaultsFirst (x >>= f) := by
  intro b e he
  cases h : (x.on b).result with
  | ok a =>
    rw [on_bind_of_ok h] at he ⊢
    simp only [hx b, hf a _ e he, List.append_nil]
  | error e' =>
    rw [on_bind_of_error h]
    exact hx b

/-! ### Lists of actions -/

/-- A list of actions that an error stops splits at the action that was stopped: those before it
came to an end, and it is the last to change or print anything. -/
theorem forEach_error {f : α → Action ε Unit} {e : ε} {as : List α} {b : Bindings}
    (h : ((forEach f as).on b).result = .error e) :
    ∃ before a after, as = before ++ a :: after ∧
      ((forEach f before).on b).result = .ok () ∧
      (forEach f as).on b =
        ⟨((f a).on ((forEach f before).on b).bindings).bindings,
          ((forEach f before).on b).printed ++
            ((f a).on ((forEach f before).on b).bindings).printed, .error e⟩ ∧
      ((f a).on ((forEach f before).on b).bindings).result = .error e := by
  induction as generalizing b with
  | nil => cases h
  | cons a as ih =>
    rw [forEach_cons] at h
    cases first : ((f a).on b).result with
    | error e' =>
      rw [on_bind_of_error first] at h
      cases h
      refine ⟨[], a, as, rfl, rfl, ?_, first⟩
      rw [forEach_cons, on_bind_of_error first]
      rfl
    | ok _ =>
      rw [on_bind_of_ok first] at h
      rcases ih h with ⟨before, a', after, rfl, done, all, last⟩
      refine ⟨a :: before, a', after, rfl, ?_, ?_, ?_⟩
      · rw [forEach_cons, on_bind_of_ok first]
        exact done
      · rw [forEach_cons, forEach_cons, on_bind_of_ok first, on_bind_of_ok first, all]
        simp only [List.append_assoc]
      · rw [forEach_cons, on_bind_of_ok first]
        exact last

end Action
end BlockCanvas
