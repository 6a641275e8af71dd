import BlockCanvas.Proofs.Program.Coercion
import BlockCanvas.Proofs.Program.Invariant
import BlockCanvas.Proofs.Program.Run
import BlockCanvas.Proofs.Program.Words

/-!
# The numbers of a run

No run ever holds a NaN: literals are never one, and an operation either gives a finite number or
faults, so that every infinity of a run is one that the program writes down.  A value without NaNs
is equal to itself, however deep its lists nest, and so a condition that asks whether a word is
equal to itself holds.

Main statement: `sourced_of_run`.
-/

namespace BlockCanvas

/-- One of these lines has a literal of the number. -/
def Binary64.WrittenIn (lines : List Text) (x : Binary64) : Prop :=
  ∃ line ∈ lines, ∃ e, e <:+: line ∧ literal? e = some x

namespace Value

variable {lines : List Text} {v : Value}

/-- Each number inside the value is finite or written in one of these lines. -/
def Sourced (lines : List Text) (v : Value) : Prop :=
  ∀ x ∈ v.numbers, x.isFinite ∨ x.WrittenIn lines

theorem numbersOf_append (items more : List Value) :
    numbersOf (items ++ more) = numbersOf items ++ numbersOf more := by
  induction items with
  | nil => rfl
  | cons v items ih => rw [List.cons_append, numbersOf, numbersOf, ih, List.append_assoc]

theorem numbers_list_concat (items : List Value) (item : Value) :
    (list (items ++ [item])).numbers = (list items).numbers ++ item.numbers := by
  rw [numbers, numbers, numbersOf_append, numbersOf, numbersOf, List.append_nil]

theorem sourced_text (lines : List Text) (s : Text) : Sourced lines (text s) := by
  intro x hx
  cases hx

theorem sourced_number {x : Binary64} (h : x.isFinite ∨ x.WrittenIn lines) :
    Sourced lines (number x) := by
  intro y hy
  rwa [List.mem_singleton.1 hy]

theorem Sourced.mono {more : List Text} (h : Sourced lines v) (inside : lines ⊆ more) :
    Sourced more v := by
  intro x hx
  rcases h x hx with finite | ⟨line, member, written⟩
  · exact .inl finite
  · exact .inr ⟨line, inside member, written⟩

theorem Sourced.noNaN (h : Sourced lines v) : v.NoNaN := by
  intro x hx
  rcases h x hx with finite | ⟨line, -, e, -, read⟩
  · exact Binary64.isNaN_of_isFinite finite
  · exact Binary64.isNaN_of_literal? read

/-- Literals are written in the lines, and no step makes another infinity. -/
theorem invariantOn_sourced (config : Config) (lines : List Text) :
    InvariantOn config (fun e => ∃ line ∈ lines, e <:+: line) (Sourced lines) where
  text := sourced_text lines
  literal e x written read := by
    obtain ⟨line, member, inside⟩ := written
    exact sourced_number (.inr ⟨line, member, e, inside, read⟩)
  finite x h := sourced_number (.inl h)
  nil := by
    intro x hx
    cases hx
  appended name list item grown hl hi h := by
    obtain ⟨items, rfl, rfl⟩ := Statement.appended_eq_ok h
    intro x hx
    rw [numbers_list_concat] at hx
    rcases List.mem_append.1 hx with old | new
    · exact hl x old
    · exact hi x new

/-! ### Equality -/

mutual

/-- A value is equal to itself unless a NaN inside it is not. -/
theorem same_self : ∀ v : Value, v.NoNaN → v.same v = true
  | text s, _ => beq_self_eq_true s
  | number _, h => Binary64.eq_self (h _ List.mem_cons_self)
  | list items, h => sameItems_self items h

theorem sameItems_self : ∀ items : List Value, (∀ x ∈ numbersOf items, x.isNaN = false) →
    sameItems items items = true
  | [], _ => rfl
  | v :: rest, h => by
    have head : v.NoNaN := fun x hx => h x (List.mem_append_left _ hx)
    have tail : ∀ x ∈ numbersOf rest, x.isNaN = false :=
      fun x hx => h x (List.mem_append_right _ hx)
    rw [sameItems, same_self v head, sameItems_self rest tail, Bool.and_self]

end

end Value

/-! ### Operations -/

namespace Expression

/-- Whatever an operation counts with, the numbers it gives are finite. -/
theorem isFinite_of_operate {op : Operator} {left right v : Value}
    (h : operate op left right = .ok v) : ∀ x ∈ v.numbers, x.isFinite := by
  rcases operate_eq_ok h with ⟨-, rfl⟩ | ⟨z, finite, rfl⟩
  · intro x hx
    cases hx
  · intro x hx
    rwa [List.mem_singleton.1 hx]

/-! ### Conditions -/

/-- No other comparison than the one between them stands between two words. -/
theorem cutCondition?_words {x y : Text} (left : ∀ c ∈ x, Text.isWordChar c)
    (right : ∀ c ∈ y, Text.isWordChar c) (c : Comparison) :
    cutCondition? (x ++ c.token ++ y) = some (c, x, y) := by
  have sides {d : Char} (other : Text.isWordChar d = false) : d ∉ x ∧ d ∉ y :=
    ⟨Text.notMem_of_word left other, Text.notMem_of_word right other⟩
  have absent {o : Comparison} (h : o ≠ c) :
      Text.splitOnce o.token (x ++ c.token ++ y) = none := by
    obtain ⟨sign, inside, noWord, elsewhere⟩ :
        ∃ sign ∈ o.token, Text.isWordChar sign = false ∧ sign ∉ c.token := by
      cases o with
      | greater => exact ⟨'>', by decide, by decide, by cases c <;> first | contradiction | decide⟩
      | less => exact ⟨'<', by decide, by decide, by cases c <;> first | contradiction | decide⟩
      | equal => exact ⟨'=', by decide, by decide, by cases c <;> first | contradiction | decide⟩
    rw [Text.splitOnce_eq_none_iff]
    intro found
    have member := found.subset inside
    simp only [List.mem_append, (sides noWord).1, (sides noWord).2, elsewhere, or_self] at member
  have cut : Text.splitOnce c.token (x ++ c.token ++ y) = some (x, y) := by
    obtain ⟨sign, token⟩ : ∃ sign, c.token = ' ' :: sign := by
      cases c <;> exact ⟨_, rfl⟩
    rw [token, List.append_assoc, Text.splitOnce_append_of_notMem (sides (by decide)).1,
      Text.splitOnce_self_append (List.cons_ne_nil _ _), Option.map_some, List.append_nil]
  generalize x ++ c.token ++ y = e at absent cut
  cases c <;> simp [cutCondition?, Comparison.all, absent, cut]

/-- A word that is no number is equal to itself where no value holds a NaN. -/
theorem holds_self {x : Text} (word : Text.IsWord x) (plain : Binary64.literal? x = none)
    {b : Bindings} (noNaN : b.All Value.NoNaN) :
    holds b (x ++ " == ".toList ++ x) = .ok true := by
  have value : ((b.get? x).getD (.text x)).NoNaN := by
    cases bound : b.get? x with
    | none => exact (Value.sourced_text [] x).noNaN
    | some v => exact noNaN.get? bound
  rw [show " == ".toList = Comparison.equal.token from rfl, holds,
    cutCondition?_words word.chars word.chars]
  dsimp only
  rw [evaluate_of_word word plain, ok_bind, ok_bind, compare, Value.same_self _ value]
  rfl

end Expression

namespace Statement

variable {config : Config} {b : Bindings}

/-- The line that asks for a condition. -/
def ifLine (condition : Text) : Text := "if ".toList ++ condition ++ [':']

/-- A condition that holds is reported. -/
theorem step_ifLine {condition : Text} (equals : "==".toList <:+: condition)
    (call : '(' ∉ condition) (truth : Expression.holds b condition = .ok true) :
    (step config (ifLine condition)).on b =
      ⟨b, ["Condition \"".toList ++ condition ++ "\" is true".toList], .ok ()⟩ := by
  have assigned : Rule.assignment.accepts (ifLine condition) = false :=
    accepts_assignment_of_equals
      (equals.trans (List.infix_append "if ".toList condition [':']))
  have prompt : Rule.input.accepts (ifLine condition) = false := by
    apply accepts_input_of_notMem
    simp [ifLine, call]
  have accepted : Rule.ifHeader.accepts (ifLine condition) = true :=
    startsWith_and_endsWith "if ".toList condition [':']
  have inner : Text.between? "if ".toList [':'] (ifLine condition) = some condition :=
    Text.between?_append ..
  rw [step, Rule.all, stepWith_of_declines (declines_of_not_accepts assigned),
    stepWith_of_declines (declines_of_not_accepts rfl),
    stepWith_of_declines (declines_of_not_accepts prompt),
    stepWith_of_declines (declines_of_not_accepts rfl),
    stepWith_of_taken accepted (on_ifHeader inner truth)]

end Statement

namespace Program

open BlockCanvas.Action Statement

theorem sourced_perform (config : Config) (lines : List Text) :
    ((perform config lines).on .empty).bindings.All (Value.Sourced lines) := by
  have read : ∀ line ∈ lines, line.Allows fun e => ∃ line ∈ lines, e <:+: line :=
    fun line member _ inside => ⟨line, member, inside⟩
  exact ((Value.invariantOn_sourced config lines).keeps_perform read _ Bindings.all_empty).1

/-- After every number of lines of every program no number in the table is a NaN, and each is
finite or written in one of these lines.  The same holds of the values that expressions have then,
since operations give finite numbers only.  So a line that asks whether a word is equal to itself
reports that it is, if the word is no number, whatever it is bound to. -/
theorem sourced_of_run (config : Config) (source : Text) (count : Nat) :
    let lines := (programLines source).take count
    let reached := (perform config lines).on .empty
    (∀ name v, (name, v) ∈ reached.bindings.entries → v.NoNaN ∧ v.Sourced lines) ∧
      (∀ e v, Expression.evaluate reached.bindings e = .ok v →
        v.NoNaN ∧ v.Sourced (e :: lines)) ∧
      (∀ op left right v, Expression.operate op left right = .ok v →
        ∀ x ∈ v.numbers, x.isFinite) ∧
      ∀ x : Text, (∀ c ∈ x, Text.isWordChar c) → Binary64.literal? x = none →
        reached.result = .ok () →
        (programLines source)[count]? = some (ifLine (x ++ " == ".toList ++ x)) →
        (perform config ((programLines source).take (count + 1))).on .empty =
          ⟨reached.bindings, reached.printed ++
            ["Condition \"".toList ++ (x ++ " == ".toList ++ x) ++ "\" is true".toList],
            .ok ()⟩ := by
  intro lines reached
  have table : reached.bindings.All (Value.Sourced lines) := sourced_perform config lines
  refine ⟨?_, ?_, fun _ _ _ _ => Expression.isFinite_of_operate, ?_⟩
  · intro name v member
    exact ⟨(table (name, v) member).noNaN, table (name, v) member⟩
  · intro e v value
    have wider : reached.bindings.All (Value.Sourced (e :: lines)) :=
      fun entry member => (table entry member).mono (List.subset_cons_self e lines)
    have read : ∃ line ∈ e :: lines, e <:+: line := ⟨e, List.mem_cons_self, List.infix_rfl⟩
    have sourced := (Value.invariantOn_sourced config (e :: lines)).evaluate wider read value
    exact ⟨sourced.noNaN, sourced⟩
  · intro x chars plain done next
    have word : Text.IsWord x := by
      refine ⟨?_, chars⟩
      rintro rfl
      cases plain
    have truth := Expression.holds_self word plain fun entry member => (table entry member).noNaN
    have call : '(' ∉ x ++ " == ".toList ++ x := by
      have absent : '(' ∉ x := word.notMem (by decide)
      simp [absent]
    have equals : "==".toList <:+: x ++ " == ".toList ++ x :=
      ⟨x ++ [' '], ' ' :: x, by simp⟩
    exact perform_take_succ next done (step_ifLine equals call truth)

/-- The infinity in the table is the one that the first line writes, and it is equal to itself. -/
theorem sourced_of_run_infinity : ∃ v, ("x".toList, v) ∈ ((perform {} ((programLines
      "x = 1e400\nif x == x:".toList).take 1)).on .empty).bindings.entries ∧
    v.numbers = [.infinity false] ∧ v.NoNaN ∧
    (Binary64.infinity false).WrittenIn ((programLines "x = 1e400\nif x == x:".toList).take 1) ∧
    ((perform {} ((programLines "x = 1e400\nif x == x:".toList).take 2)).on .empty).printed =
      ["Condition \"x == x\" is true".toList] := by
  have parts := sourced_of_run {} "x = 1e400\nif x == x:".toList 1
  dsimp only at parts
  obtain ⟨table, -, -, equal⟩ := parts
  have bound : ∃ entry ∈ ((perform {} ((programLines
      "x = 1e400\nif x == x:".toList).take 1)).on .empty).bindings.entries,
      entry.1 = "x".toList ∧ entry.2.numbers = [.infinity false] := by
    decide +kernel
  have done : ((perform {} ((programLines
      "x = 1e400\nif x == x:".toList).take 1)).on .empty).result = .ok () := rfl
  have silent : ((perform {} ((programLines
      "x = 1e400\nif x == x:".toList).take 1)).on .empty).printed = [] := by
    decide +kernel
  have next : (programLines "x = 1e400\nif x == x:".toList)[1]? =
      some (ifLine ("x".toList ++ " == ".toList ++ "x".toList)) := by
    decide +kernel
  obtain ⟨⟨_, v⟩, member, rfl, numbers⟩ := bound
  obtain ⟨noNaN, sourced⟩ := table _ v member
  have written : (Binary64.infinity false).WrittenIn
      ((programLines "x = 1e400\nif x == x:".toList).take 1) := by
    have member : Binary64.infinity false ∈ v.numbers := by
      rw [numbers]
      exact List.mem_cons_self
    rcases sourced _ member with finite | written
    · cases finite
    · exact written
  refine ⟨v, member, numbers, noNaN, written, ?_⟩
  rw [equal "x".toList (List.all_eq_true.1 (by decide)) (by decide +kernel) done next, silent]
  rfl

end Program
end BlockCanvas
