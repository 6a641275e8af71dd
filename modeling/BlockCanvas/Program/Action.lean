import BlockCanvas.Program.Bindings

/-!
# Actions

What statements are made of.  An action works on the bindings of a run, prints lines, and gives a
result or is stopped by an error.  An error undoes nothing: the bindings stay as they were changed
and the lines stay printed.

Main statement: `forEach_cons`, an action for each item of a list is the action for the first item,
followed by the actions for the others.
-/

namespace BlockCanvas

/-- What an action did: the bindings it left, the lines it printed, and its result or the error
that stopped it. -/
structure Effect (ε α : Type) where
  bindings : Bindings
  printed : List Text
  result : Except ε α

/-- A computation that changes bindings, prints lines and may be stopped by an error. -/
def Action (ε α : Type) := Bindings → Effect ε α

namespace Action

variable {ε ε' α β : Type}

/-- What an action does to given bindings. -/
def on (x : Action ε α) (b : Bindings) : Effect ε α := x b

instance : Monad (Action ε) where
  pure a := fun b => ⟨b, [], .ok a⟩
  bind x f := fun b =>
    let first := x.on b
    match first.result with
    | .ok a =>
      let later := (f a).on first.bindings
      { later with printed := first.printed ++ later.printed }
    | .error e => ⟨first.bindings, first.printed, .error e⟩

/-! ### Steps -/

/-- Stops with an error. -/
def fail (e : ε) : Action ε α := fun b => ⟨b, [], .error e⟩

/-- What can be computed from the bindings, which stay as they are. -/
def compute (f : Bindings → Except ε α) : Action ε α := fun b => ⟨b, [], f b⟩

/-- Prints a line. -/
def print (line : Text) : Action ε Unit := fun b => ⟨b, [line], .ok ()⟩

/-- Binds a name to a value. -/
def store (name : Text) (v : Value) : Action ε Unit := fun b => ⟨b.bind name v, [], .ok ()⟩

/-- An action with another kind of error. -/
def mapError (f : ε → ε') (x : Action ε α) : Action ε' α := fun b =>
  let effect := x.on b
  ⟨effect.bindings, effect.printed, effect.result.mapError f⟩

/-- The effect of the actions for all items, after the lines in `before`, the last one first. -/
def eachAfter (f : α → Action ε Unit) (before : List Text) (b : Bindings) :
    List α → Effect ε Unit
  | [] => ⟨b, before.reverse, .ok ()⟩
  | a :: rest =>
    let first := (f a).on b
    match first.result with
    | .ok _ => eachAfter f (first.printed.reverseAux before) first.bindings rest
    | .error e => ⟨first.bindings, (first.printed.reverseAux before).reverse, .error e⟩

/-- An action for each item of a list, one after the other. -/
def forEach (f : α → Action ε Unit) (as : List α) : Action ε Unit := fun b => eachAfter f [] b as

/-! ### What the steps do -/

@[ext]
theorem ext {x y : Action ε α} (h : ∀ b, x.on b = y.on b) : x = y := funext h

@[simp]
theorem on_pure (a : α) (b : Bindings) : (pure a : Action ε α).on b = ⟨b, [], .ok a⟩ := rfl

theorem on_bind_of_ok {x : Action ε α} {f : α → Action ε β} {b : Bindings} {a : α}
    (h : (x.on b).result = .ok a) :
    (x >>= f).on b = ⟨((f a).on (x.on b).bindings).bindings,
      (x.on b).printed ++ ((f a).on (x.on b).bindings).printed,
      ((f a).on (x.on b).bindings).result⟩ := by
  show (match (x.on b).result with | .ok a => _ | .error e => _) = _
  rw [h]

theorem on_bind_of_error {x : Action ε α} {f : α → Action ε β} {b : Bindings} {e : ε}
    (h : (x.on b).result = .error e) :
    (x >>= f).on b = ⟨(x.on b).bindings, (x.on b).printed, .error e⟩ := by
  show (match (x.on b).result with | .ok a => _ | .error e => _) = _
  rw [h]

@[simp]
theorem on_fail (e : ε) (b : Bindings) : (fail e : Action ε α).on b = ⟨b, [], .error e⟩ := rfl

@[simp]
theorem on_compute (f : Bindings → Except ε α) (b : Bindings) :
    (compute f).on b = ⟨b, [], f b⟩ := rfl

@[simp]
theorem on_print (line : Text) (b : Bindings) :
    (print line : Action ε Unit).on b = ⟨b, [line], .ok ()⟩ := rfl

@[simp]
theorem on_store (name : Text) (v : Value) (b : Bindings) :
    (store name v : Action ε Unit).on b = ⟨b.bind name v, [], .ok ()⟩ := rfl

@[simp]
theorem on_mapError (f : ε → ε') (x : Action ε α) (b : Bindings) :
    (x.mapError f).on b = ⟨(x.on b).bindings, (x.on b).printed, (x.on b).result.mapError f⟩ := rfl

theorem id_map (x : Action ε α) : id <$> x = x := by
  ext b
  show (x >>= fun a => pure a).on b = x.on b
  cases h : (x.on b).result with
  | ok a => rw [on_bind_of_ok h, on_pure, List.append_nil, ← h]
  | error e => rw [on_bind_of_error h, ← h]

theorem bind_assoc {γ : Type} (x : Action ε α) (f : α → Action ε β) (g : β → Action ε γ) :
    x >>= f >>= g = x >>= fun a => f a >>= g := by
  ext b
  cases h : (x.on b).result with
  | error e =>
    rw [on_bind_of_error h, on_bind_of_error (by rw [on_bind_of_error h]), on_bind_of_error h]
  | ok a =>
    cases h' : ((f a).on (x.on b).bindings).result with
    | error e =>
      rw [on_bind_of_ok h, on_bind_of_error h', on_bind_of_error (by rw [on_bind_of_ok h, h']),
        on_bind_of_ok h]
    | ok a' =>
      rw [on_bind_of_ok h, on_bind_of_ok h', on_bind_of_ok (by rw [on_bind_of_ok h, h']),
        on_bind_of_ok h]
      simp only [List.append_assoc]

instance : LawfulMonad (Action ε) :=
  LawfulMonad.mk' (Action ε) id_map (fun _ _ => ext fun _ => on_bind_of_ok rfl) bind_assoc

/-! ### Lists of actions -/

@[simp]
theorem forEach_nil (f : α → Action ε Unit) : forEach f [] = pure () := rfl

theorem eachAfter_eq (f : α → Action ε Unit) :
    ∀ (as : List α) (before : List Text) (b : Bindings), eachAfter f before b as =
      ⟨((forEach f as).on b).bindings, before.reverse ++ ((forEach f as).on b).printed,
        ((forEach f as).on b).result⟩
  | [], before, b => by simp [eachAfter]
  | a :: rest, before, b => by
    show _ = (⟨(eachAfter f [] b (a :: rest)).bindings, _ ++ (eachAfter f [] b (a :: rest)).printed,
      (eachAfter f [] b (a :: rest)).result⟩ : Effect ε Unit)
    simp only [eachAfter]
    cases ((f a).on b).result with
    | error e => simp
    | ok _ =>
      simp only [eachAfter_eq f rest]
      simp

@[simp]
theorem forEach_cons (f : α → Action ε Unit) (a : α) (as : List α) :
    forEach f (a :: as) = f a >>= fun _ => forEach f as := by
  ext b
  show eachAfter f [] b (a :: as) = _
  simp only [eachAfter]
  cases h : ((f a).on b).result with
  | error e => rw [on_bind_of_error h]; simp
  | ok _ => rw [on_bind_of_ok h, eachAfter_eq]; simp

theorem forEach_append (f : α → Action ε Unit) (as bs : List α) :
    forEach f (as ++ bs) = forEach f as >>= fun _ => forEach f bs := by
  induction as with
  | nil => simp
  | cons a as ih => simp [ih]

end Action
end BlockCanvas
