import BlockCanvas.Proofs.Program.Run
import BlockCanvas.Proofs.Program.Words

/-!
# Appends in a row

Appends of single values to one list put the values at its end, one after the other, until the list
is full: `perform_appends`.  The list counts as a value itself, so it holds one value less than the
limit says, and the append that would be one too many faults and prints nothing.
-/

namespace BlockCanvas

open Text (IsWord)

namespace Statement

open BlockCanvas.Action

/-- What an append of a value to a list shows. -/
def added (n : Text) (v : Value) : Text := "Added ".toList ++ v.display ++ " to ".toList ++ n

variable {config : Config} {b : Bindings} {n e : Text} {v : Value} {items : List Value}

/-- One append: it makes the list longer, or finds it full. -/
theorem step_append (config : Config) (list : IsWord n) (item : IsWord e)
    (single : ∀ w ∈ items, w.Single) (last : v.Single)
    (bound : (b.opened n).get? n = some (.list items))
    (value : Expression.evaluate (b.opened n) e = .ok v) :
    (step config (appendLine n e)).on b =
      if items.length + 2 ≤ config.maxListItems then
        ⟨(b.opened n).bind n (.list (items ++ [v])), [added n v], .ok ()⟩
      else ⟨b.opened n, [],
        .error ⟨appendLine n e, .append, .listTooLarge n config.maxListItems⟩⟩ := by
  have shape : Shape.append? (appendLine n e) = some (n, e) :=
    append?_appendLine list item.ne_nil
  have whole : (handle config (appendLine n e) .append).on b = _ :=
    on_append config shape bound value
  rw [step, stepWith_of_takenBy (takenBy_appendLine list item config b), whole,
    appended_single config n single last]
  by_cases room : items.length + 2 ≤ config.maxListItems
  · rw [if_pos room, if_pos room]
    rfl
  · rw [if_neg room, if_neg room]

end Statement

namespace Program

open BlockCanvas.Action Statement

variable {config : Config} {b b' : Bindings} {n : Text} {items : List (Text × Value)}

/-- Words that can be appended to the list `n`: each is evaluated to a single value. -/
structure Appendable (b : Bindings) (n : Text) (items : List (Text × Value)) : Prop where
  word : ∀ i ∈ items, IsWord i.1
  other : ∀ i ∈ items, i.1 ≠ n
  value : ∀ i ∈ items, Expression.evaluate b i.1 = .ok i.2
  single : ∀ i ∈ items, i.2.Single

/-- The lines that append the words to the list, one after the other. -/
def appendLines (n : Text) (items : List (Text × Value)) : List Text :=
  items.map fun i => appendLine n i.1

/-- What the appends do if the list holds the values `done` and there is room for as many more: they
put so many values at its end, and the append after them finds it full. -/
structure Fills (config : Config) (b : Bindings) (n : Text) (done : List Value) (room : Nat)
    (items : List (Text × Value)) (effect : Effect Failure Unit) : Prop where
  printed : effect.printed = (items.take room).map fun i => added n i.2
  bound : items ≠ [] →
    effect.bindings.get? n = some (.list (done ++ (items.take room).map fun i => i.2))
  others : ∀ other, other ≠ n → effect.bindings.get? other = b.get? other
  result : effect.result =
    match items[room]? with
    | none => .ok ()
    | some i => .error ⟨appendLine n i.1, .append, .listTooLarge n config.maxListItems⟩

theorem Appendable.tail {i : Text × Value} (h : Appendable b n (i :: items))
    (same : ∀ other, other ≠ n → b'.get? other = b.get? other) : Appendable b' n items where
  word j hj := h.word j (List.mem_cons_of_mem i hj)
  other j hj := h.other j (List.mem_cons_of_mem i hj)
  value j hj := by
    have mem := List.mem_cons_of_mem i hj
    rw [Expression.evaluate_word_congr (h.word j mem) (same j.1 (h.other j mem)), h.value j mem]
  single j hj := h.single j (List.mem_cons_of_mem i hj)

theorem Appendable.head {i : Text × Value} (h : Appendable b n (i :: items)) :
    Expression.evaluate (b.opened n) i.1 = .ok i.2 := by
  have word := h.word i List.mem_cons_self
  have other := h.other i List.mem_cons_self
  rw [Expression.evaluate_word_congr word (Bindings.get?_opened_of_ne b other),
    h.value i List.mem_cons_self]

/-- One more append before these, with room for its value. -/
theorem Fills.cons {i : Text × Value} {done : List Value} {room : Nat}
    {effect : Effect Failure Unit} (bound : items = [] →
      effect.bindings.get? n = some (.list (done ++ [i.2])))
    (others : ∀ other, other ≠ n → b'.get? other = b.get? other)
    (rest : Fills config b' n (done ++ [i.2]) room items effect) :
    Fills config b n done (room + 1) (i :: items)
      ⟨effect.bindings, [added n i.2] ++ effect.printed, effect.result⟩ where
  printed := by
    rw [rest.printed, List.take_succ_cons, List.map_cons, List.singleton_append]
  bound _ := by
    by_cases last : items = []
    · rw [bound last, last, List.take_succ_cons, List.take_nil]
      rfl
    · rw [rest.bound last, List.append_assoc]
      rfl
  others other ne := (rest.others other ne).trans (others other ne)
  result := rest.result

/-- The induction is on the appends; the list that one of them leaves is the one that the next works
on. -/
theorem fills_perform (list : IsWord n) {done : List Value} (single : ∀ w ∈ done, w.Single)
    (bound : (b.opened n).get? n = some (.list done)) (h : Appendable b n items) :
    Fills config b n done (config.maxListItems - 1 - done.length) items
      ((perform config (appendLines n items)).on b) := by
  induction items generalizing b done with
  | nil =>
    exact ⟨by rw [List.take_nil]; rfl, fun ne => absurd rfl ne, fun _ _ => rfl, rfl⟩
  | cons i items ih =>
    have here := step_append config list (h.word i List.mem_cons_self) single
      (h.single i List.mem_cons_self) bound h.head
    have opened (other : Text) (ne : other ≠ n) : (b.opened n).get? other = b.get? other :=
      Bindings.get?_opened_of_ne b ne
    rw [appendLines, List.map_cons, ← appendLines]
    by_cases room : done.length + 2 ≤ config.maxListItems
    · rw [if_pos room] at here
      have grown : ((b.opened n).bind n (.list (done ++ [i.2]))).get? n =
          some (.list (done ++ [i.2])) := Bindings.get?_bind_self ..
      have same (other : Text) (ne : other ≠ n) :
          ((b.opened n).bind n (.list (done ++ [i.2]))).get? other = b.get? other :=
        (Bindings.get?_bind_of_ne _ _ ne).trans (opened other ne)
      have single' : ∀ w ∈ done ++ [i.2], w.Single := by
        intro w hw
        rcases List.mem_append.1 hw with before | last
        · exact single w before
        · exact List.mem_singleton.1 last ▸ h.single i List.mem_cons_self
      have bound' := (congrArg (Bindings.get? · n) (Bindings.opened_of_list grown)).trans grown
      have left : config.maxListItems - 1 - done.length =
          config.maxListItems - 1 - (done ++ [i.2]).length + 1 := by
        rw [List.length_append, List.length_singleton]
        omega
      rw [perform_cons_of_ok here, left]
      refine (ih single' bound' (h.tail same)).cons ?_ same
      rintro rfl
      exact grown
    · rw [if_neg room] at here
      have full : config.maxListItems - 1 - done.length = 0 := by omega
      rw [perform_cons_of_error here, full]
      exact ⟨rfl, fun _ => by simpa using bound, opened, rfl⟩

/-- Appends of words to an unbound or false name, with a limit of `M` values for a list: the first
`M - 1` of them put their values into the list in order, and the next one faults.  It is an append
that makes the list: where there is none, the name is left as it was. -/
theorem perform_appends (config : Config) (b : Bindings) (n : Text) (items : List (Text × Value))
    (list : IsWord n) (falsy : ∀ v, b.get? n = some v → v.isTruthy = false)
    (words : ∀ i ∈ items, IsWord i.1 ∧ i.1 ≠ n)
    (values : ∀ i ∈ items, Expression.evaluate b i.1 = .ok i.2 ∧ ∀ vs, i.2 ≠ .list vs) :
    let lines := items.map fun i => n ++ ".append(".toList ++ (i.1 ++ [')'])
    let effect := (perform config lines).on b
    effect.printed = (items.take (config.maxListItems - 1)).map
        (fun i => "Added ".toList ++ i.2.display ++ " to ".toList ++ n) ∧
      (items ≠ [] → effect.bindings.get? n =
        some (.list ((items.take (config.maxListItems - 1)).map fun i => i.2))) ∧
      (items = [] → effect.bindings = b) ∧
      (effect.bindings.opened n).get? n =
        some (.list ((items.take (config.maxListItems - 1)).map fun i => i.2)) ∧
      (∀ other, other ≠ n → effect.bindings.get? other = b.get? other) ∧
      (effect.result = .ok () ↔ items.length ≤ max config.maxListItems 1 - 1) ∧
      ∀ before item after, items = before ++ item :: after →
        before.length = max config.maxListItems 1 - 1 →
        effect.result = .error ⟨n ++ ".append(".toList ++ (item.1 ++ [')']), .append,
          .listTooLarge n config.maxListItems⟩ := by
  intro lines effect
  have appendable : Appendable b n items :=
    ⟨fun i hi => (words i hi).1, fun i hi => (words i hi).2, fun i hi => (values i hi).1,
      fun i hi => (values i hi).2⟩
  have empty : (b.opened n).get? n = some (.list []) := by
    rw [Bindings.opened_of_falsy falsy, Bindings.get?_bind_self]
  have fills : Fills config b n [] (config.maxListItems - 1) items effect :=
    fills_perform list (fun _ h => absurd h List.not_mem_nil) empty appendable
  have room : max config.maxListItems 1 - 1 = config.maxListItems - 1 := by omega
  refine ⟨fills.printed, fills.bound, ?_, ?_, fills.others, ?_, ?_⟩
  · rintro rfl
    rfl
  · by_cases none : items = []
    · subst none
      rw [List.take_nil]
      exact empty
    · rw [Bindings.opened_of_list (fills.bound none)]
      exact fills.bound none
  · rw [room, fills.result, ← List.getElem?_eq_none_iff]
    cases items[config.maxListItems - 1]? <;> simp
  · rintro before item after rfl full
    rw [room] at full
    rw [fills.result, ← full, List.getElem?_append_right (Nat.le_refl _), Nat.sub_self]
    rfl

/-- Two of three values get into a list that takes the place of an empty text. -/
theorem perform_appends_three :
    let config : Config := { maxListItems := 3 }
    let table := Bindings.empty.bind "xs".toList (.text [])
    let b : Text × Value := ("b".toList, .text "b".toList)
    let a : Text × Value := ("a".toList, .text "a".toList)
    let effect := (perform config
      ["xs.append(b)".toList, "xs.append(a)".toList, "xs.append(b)".toList]).on table
    IsWord "xs".toList ∧
      (∀ v, table.get? "xs".toList = some v → v.isTruthy = false) ∧
      (∀ i ∈ [b, a, b], IsWord i.1 ∧ i.1 ≠ "xs".toList) ∧
      (∀ i ∈ [b, a, b], Expression.evaluate table i.1 = .ok i.2 ∧ ∀ vs, i.2 ≠ .list vs) ∧
      effect.printed = ["Added b to xs".toList, "Added a to xs".toList] ∧
      effect.bindings.get? "xs".toList = some (.list [.text "b".toList, .text "a".toList]) ∧
      effect.result =
        .error ⟨"xs.append(b)".toList, .append, .listTooLarge "xs".toList 3⟩ ∧
      ((perform config ["xs.append(b)".toList, "xs.append(a)".toList]).on table).result =
        .ok () := by
  intro config table b a effect
  have list : IsWord "xs".toList := by decide
  have falsy : ∀ v, table.get? "xs".toList = some v → v.isTruthy = false := by
    intro v bound
    rw [Bindings.get?_bind_self] at bound
    cases bound
    rfl
  have value (s : Text) (word : IsWord s) (plain : Binary64.literal? s = none)
      (unbound : table.get? s = none) : Expression.evaluate table s = .ok (.text s) := by
    rw [Expression.evaluate_of_word word plain, unbound, Option.getD_none]
  have letter : ∀ i, i = b ∨ i = a → (IsWord i.1 ∧ i.1 ≠ "xs".toList) ∧
      Expression.evaluate table i.1 = .ok i.2 ∧ ∀ vs, i.2 ≠ .list vs := by
    rintro i (rfl | rfl)
    · have word : IsWord "b".toList := by decide
      exact ⟨⟨word, by decide⟩, value _ word (by decide +kernel) (by decide +kernel),
        fun _ h => by cases h⟩
    · have word : IsWord "a".toList := by decide
      exact ⟨⟨word, by decide⟩, value _ word (by decide +kernel) (by decide +kernel),
        fun _ h => by cases h⟩
  have three : ∀ i ∈ [b, a, b], i = b ∨ i = a := by simp
  have two : ∀ i ∈ [b, a], i = b ∨ i = a := by simp
  have words := fun i hi => (letter i (three i hi)).1
  have values := fun i hi => (letter i (three i hi)).2
  have runs := perform_appends config table "xs".toList
  obtain ⟨printed, bound, -, -, -, -, fault⟩ := runs [b, a, b] list falsy words values
  have fits := (runs [b, a] list falsy (fun i hi => (letter i (two i hi)).1)
    fun i hi => (letter i (two i hi)).2).2.2.2.2.2.1.2 (by decide)
  exact ⟨list, falsy, words, values, printed, bound (by decide), fault [b, a] b [] rfl rfl, fits⟩

/-- Without appends an unbound name stays unbound: it does not become the empty list. -/
theorem not_perform_appends :
    ¬ ∀ (config : Config) (b : Bindings) (n : Text) (items : List (Text × Value)), IsWord n →
      (∀ v, b.get? n = some v → v.isTruthy = false) →
      (∀ i ∈ items, IsWord i.1 ∧ i.1 ≠ n) →
      (∀ i ∈ items, Expression.evaluate b i.1 = .ok i.2 ∧ ∀ vs, i.2 ≠ .list vs) →
        let lines := items.map fun i => n ++ ".append(".toList ++ (i.1 ++ [')'])
        let effect := (perform config lines).on b
        effect.printed = (items.take (config.maxListItems - 1)).map
            (fun i => "Added ".toList ++ i.2.display ++ " to ".toList ++ n) ∧
          effect.bindings.get? n =
            some (.list ((items.take (config.maxListItems - 1)).map fun i => i.2)) ∧
          (effect.result = .ok () ↔ items.length ≤ max config.maxListItems 1 - 1) ∧
          ∀ before item after, items = before ++ item :: after →
            before.length = max config.maxListItems 1 - 1 →
            effect.result = .error ⟨n ++ ".append(".toList ++ (item.1 ++ [')']), .append,
              .listTooLarge n config.maxListItems⟩ := by
  intro h
  have unbound : Bindings.empty.get? "xs".toList = none := rfl
  have bound := (h {} .empty "xs".toList [] (by decide) (fun _ bound => by cases bound)
    (List.forall_mem_nil _) (List.forall_mem_nil _)).2.1
  exact absurd (unbound.symm.trans bound) (by decide)

end Program
end BlockCanvas
