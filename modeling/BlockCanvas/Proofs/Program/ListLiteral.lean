import BlockCanvas.Proofs.Program.Handlers
import BlockCanvas.Proofs.Program.Run
import BlockCanvas.Proofs.Program.Words

/-!
# List literals

A line of elements in brackets, with a comma and a blank between them, is cut into these elements
again, since no element has a comma of its own.  So the line shows the values of all of them, or
faults as the first one does that has no value: `perform_listLine`.  Nothing between the brackets is
one blank element, which counts as zero, so that the list without elements is shown as the list of
zero.
-/

namespace BlockCanvas
namespace Statement

open BlockCanvas.Action

variable {config : Config} {b : Bindings} {es : List Text}

/-- The list literal of these elements. -/
def listLine (es : List Text) : Text := ['['] ++ ", ".toList.intercalate es ++ [']']

theorem between?_listLine (es : List Text) :
    Text.between? ['['] [']'] (listLine es) = some (", ".toList.intercalate es) :=
  Text.between?_append ..

theorem mapM_splitChar_intercalate {ε β : Type} (f : Text → Except ε β) (ne_nil : es ≠ [])
    (comma : ∀ e ∈ es, ',' ∉ e) :
    ((Text.splitChar ',' (", ".toList.intercalate es)).mapM fun e => f (Text.trim e)) =
      es.mapM fun e => f (Text.trim e) := by
  obtain ⟨e, rest, rfl⟩ := List.exists_cons_of_ne_nil ne_nil
  obtain ⟨first, later⟩ := List.forall_mem_cons.1 comma
  have pieces : Text.splitChar ',' (", ".toList.intercalate (e :: rest)) =
      e :: rest.map (" ".toList ++ ·) :=
    Text.splitChar_intercalate (by decide) first later
  have trimmed (e : Text) : Text.trim (" ".toList ++ e) = Text.trim e :=
    Text.trim_cons_blank (by decide) e
  rw [pieces, List.mapM_cons, List.mapM_cons, List.mapM_map]
  simp only [Function.comp_def, trimmed]

/-- The line has none of the texts by which the rules before the list literals tell their lines. -/
def NoMark (line : Text) : Prop :=
  ∀ mark ∈ [" = ".toList, "input(".toList, ".append(".toList], ¬ mark <:+: line

instance : DecidablePred NoMark := fun line =>
  inferInstanceAs (Decidable (∀ mark ∈ _, ¬ mark <:+: line))

theorem takenBy_listLine (plain : NoMark (listLine es)) (config : Config) (b : Bindings) :
    TakenBy config b (listLine es) Rule.all .listLiteral := by
  have absent {mark : Text} (h : mark ∈ [" = ".toList, "input(".toList, ".append(".toList]) :
      Text.contains mark (listLine es) = false := by
    rw [Text.contains_eq_false_iff]
    exact plain mark h
  have accepted : Rule.listLiteral.accepts (listLine es) = true :=
    startsWith_and_endsWith ['['] (", ".toList.intercalate es) [']']
  have takes : ((handle config (listLine es) .listLiteral).on b).result ≠ .ok .passed := by
    show ((listLiteral _).on b).result ≠ _
    rw [on_listLiteral (between?_listLine es)]
    split
    all_goals rintro ⟨⟩
  refine takenBy_of_accepts [.assignment, .print, .input, .forRange, .ifHeader, .defHeader, .append]
    rfl ?_ accepted takes
  simp only [List.forall_mem_cons, List.not_mem_nil, false_imp_iff, implies_true, and_true]
  refine ⟨?_, rfl, absent (by decide), rfl, rfl, rfl, absent (by decide)⟩
  rw [Rule.accepts, absent (by decide), Bool.false_and]

/-- A list literal shows the values of its elements, or fails as they do. -/
theorem step_listLine (ne_nil : es ≠ []) (comma : ∀ e ∈ es, ',' ∉ e)
    (plain : NoMark (listLine es)) :
    (step config (listLine es)).on b =
      match es.mapM fun e => Expression.evaluate b (Text.trim e) with
      | .ok vs => ⟨b, [listShown vs], .ok ()⟩
      | .error fault => ⟨b, [], .error ⟨listLine es, .listLiteral, fault⟩⟩ := by
  have handled : (handle config (listLine es) .listLiteral).on b = _ :=
    on_listLiteral (between?_listLine es)
  rw [mapM_splitChar_intercalate (Expression.evaluate b) ne_nil comma] at handled
  rw [step, stepWith_of_takenBy (takenBy_listLine plain config b), handled]
  cases es.mapM fun e => Expression.evaluate b (Text.trim e) with
  | ok vs => rfl
  | error fault => rfl

end Statement

namespace Program

open Statement

variable {es : List Text}

theorem programLines_listLine (feed : ∀ e ∈ es, '\n' ∉ e) :
    programLines (listLine es) = [listLine es] := by
  have one : '\n' ∉ listLine es := by
    have inner : '\n' ∉ ", ".toList.intercalate es :=
      Text.notMem_intercalate (by decide) feed
    rw [listLine, List.mem_append, List.mem_append, not_or, not_or]
    exact ⟨⟨by decide, inner⟩, by decide⟩
  have trimmed : Text.trim (listLine es) = listLine es := by
    apply Text.trim_eq_self
    · rintro c ⟨⟩
      decide
    · rw [listLine, List.getLast?_append_of_ne_nil _ (by simp)]
      rintro c ⟨⟩
      decide
  exact programLines_of_line one trimmed rfl

theorem perform_listLine_of_ne_nil {config : Config} {b : Bindings} (ne_nil : es ≠ [])
    (clean : ∀ e ∈ es, ',' ∉ e ∧ '\n' ∉ e) (plain : NoMark (listLine es)) :
    (perform config (programLines (listLine es))).on b =
      match es.mapM fun e => Expression.evaluate b (Text.trim e) with
      | .ok vs => ⟨b, [listShown vs], .ok ()⟩
      | .error fault => ⟨b, [], .error ⟨listLine es, .listLiteral, fault⟩⟩ := by
  rw [programLines_listLine fun e he => (clean e he).2, perform_singleton,
    step_listLine ne_nil (fun e he => (clean e he).1) plain]

/-- A list literal is run as the line that it is: it shows the values of its elements, joined as the
elements are, or it shows nothing and faults as the first element does that has no value.  Without
elements it is the literal of one blank element. -/
theorem perform_listLine (config : Config) (b : Bindings) :
    (∀ es : List Text, es ≠ [] → (∀ e ∈ es, ',' ∉ e ∧ '\n' ∉ e) → NoMark (listLine es) →
      (∀ vs, List.Forall₂ (fun e v => Expression.evaluate b (Text.trim e) = .ok v) es vs →
        (perform config (programLines (listLine es))).on b =
          ⟨b, ["List created: [".toList ++ ", ".toList.intercalate (vs.map Value.display) ++ [']']],
            .ok ()⟩) ∧
      ((∃ e ∈ es, ∃ fault, Expression.evaluate b (Text.trim e) = .error fault) →
        ∃ before e after fault, es = before ++ e :: after ∧
          (∀ e ∈ before, ∃ v, Expression.evaluate b (Text.trim e) = .ok v) ∧
          Expression.evaluate b (Text.trim e) = .error fault ∧
          (perform config (programLines (listLine es))).on b =
            ⟨b, [], .error ⟨listLine es, .listLiteral, fault⟩⟩)) ∧
      (perform config (programLines (listLine []))).on b =
        ⟨b, ["List created: [0]".toList], .ok ()⟩ := by
  refine ⟨fun es ne_nil clean plain => ⟨?_, ?_⟩, ?_⟩
  · intro vs values
    rw [perform_listLine_of_ne_nil ne_nil clean plain, mapM_eq_ok_of_forall₂ values]
    rfl
  · intro faulty
    obtain ⟨before, e, after, fault, split, done, fails, all⟩ := exists_mapM_eq_error faulty
    refine ⟨before, e, after, fault, split, done, fails, ?_⟩
    rw [perform_listLine_of_ne_nil ne_nil clean plain, all]
  · have value : ([[]] : List Text).mapM (fun e => Expression.evaluate b (Text.trim e)) =
        .ok [.number (.zero false)] := rfl
    have shown : listShown [.number (.zero false)] = "List created: [0]".toList := by
      decide +kernel
    have plain : NoMark (listLine [[]]) := by decide
    show (perform config (programLines (listLine [[]]))).on b = _
    rw [perform_listLine_of_ne_nil (by decide) (by decide) plain, value, ← shown]

/-- Names and texts in quotes have values; a quotient by zero has none, whatever stands before
it. -/
theorem perform_listLine_division :
    ((∀ e ∈ ["xs".toList, " 'a' ".toList], ',' ∉ e ∧ '\n' ∉ e) ∧
      NoMark (listLine ["xs".toList, " 'a' ".toList]) ∧
      (perform {} (programLines (listLine ["xs".toList, " 'a' ".toList]))).on
          (.bind .empty "xs".toList (.list [.text ['b'], .text ['c']])) =
        ⟨.bind .empty "xs".toList (.list [.text ['b'], .text ['c']]),
          ["List created: [b,c, a]".toList], .ok ()⟩) ∧
      (∀ e ∈ ["a".toList, "1 / 0".toList], ',' ∉ e ∧ '\n' ∉ e) ∧
      NoMark (listLine ["a".toList, "1 / 0".toList]) ∧
      ∃ fault, (perform {} (programLines (listLine ["a".toList, "1 / 0".toList]))).on .empty =
        ⟨.empty, [], .error ⟨listLine ["a".toList, "1 / 0".toList], .listLiteral, fault⟩⟩ := by
  have clean : ∀ e ∈ ["xs".toList, " 'a' ".toList], ',' ∉ e ∧ '\n' ∉ e := by decide
  have plain : NoMark (listLine ["xs".toList, " 'a' ".toList]) := by decide +kernel
  have values : List.Forall₂
      (fun e v => Expression.evaluate (.bind .empty "xs".toList
        (.list [.text ['b'], .text ['c']])) (Text.trim e) = .ok v)
      ["xs".toList, " 'a' ".toList] [.list [.text ['b'], .text ['c']], .text "a".toList] :=
    .cons rfl (.cons rfl .nil)
  have shown : listShown [.list [.text ['b'], .text ['c']], .text "a".toList] =
      "List created: [b,c, a]".toList := by
    decide +kernel
  have clean' : ∀ e ∈ ["a".toList, "1 / 0".toList], ',' ∉ e ∧ '\n' ∉ e := by decide
  have plain' : NoMark (listLine ["a".toList, "1 / 0".toList]) := by decide +kernel
  have faulty : ∃ e ∈ ["a".toList, "1 / 0".toList], ∃ fault,
      Expression.evaluate .empty (Text.trim e) = .error fault :=
    ⟨"1 / 0".toList, by decide, _, rfl⟩
  have printed := ((perform_listLine {} _).1 _ (by decide) clean plain).1 _ values
  obtain ⟨-, -, -, fault, -, -, -, faults⟩ :=
    ((perform_listLine {} .empty).1 _ (by decide) clean' plain').2 faulty
  refine ⟨⟨clean, plain, ?_⟩, clean', plain', fault, faults⟩
  rw [← shown]
  exact printed

/-- The list without elements is not shown as one. -/
theorem not_perform_listLine :
    ¬ ∀ (config : Config) (b : Bindings) (es : List Text) (vs : List Value),
      (∀ e ∈ es, Text.trim e ≠ [] ∧ ',' ∉ e ∧ '\n' ∉ e) → NoMark (listLine es) →
      List.Forall₂ (fun e v => Expression.evaluate b (Text.trim e) = .ok v) es vs →
      (perform config (programLines (listLine es))).on b =
        ⟨b, ["List created: [".toList ++ ", ".toList.intercalate (vs.map Value.display) ++ [']']],
          .ok ()⟩ := by
  intro h
  have shown := congrArg Effect.printed (h {} .empty [] [] (by decide) (by decide) .nil)
  have zero : ((perform {} (programLines (listLine []))).on .empty).printed =
      ["List created: [0]".toList] := by
    decide +kernel
  cases zero.symm.trans shown

end Program
end BlockCanvas
