import Mathlib.Data.List.Induction
import BlockCanvas.Proofs.Except
import BlockCanvas.Proofs.Program.Statement

/-!
# What handlers do

The statements one by one, each with the bindings it leaves, what it prints and its result.  A loop
is over before the next line: it prints all of its numbers and leaves its variable bound to the last
one, if there is one (`on_forRange`).  An append works on the table in which its name is bound to a
list (`Bindings.opened`), also where it faults: `on_append`.  The elements of a list literal are all
evaluated in the table before it: `on_listLiteral`.
-/

namespace BlockCanvas
namespace Bindings

variable {b : Bindings} {name other : Text} {v : Value}

theorem bind_bind (b : Bindings) (name : Text) (v w : Value) :
    (b.bind name v).bind name w = b.bind name w := by
  simp [bind, List.filter_filter]

/-- The table that an append to a name works on: a name that is unbound or bound to a false value
is bound to the empty list. -/
def opened (b : Bindings) (name : Text) : Bindings :=
  match b.get? name with
  | some v => if v.isTruthy then b else b.bind name (.list [])
  | none => b.bind name (.list [])

theorem opened_of_list {items : List Value} (h : b.get? name = some (.list items)) :
    b.opened name = b := by
  rw [opened, h]
  rfl

theorem opened_of_falsy (h : ∀ v, b.get? name = some v → v.isTruthy = false) :
    b.opened name = b.bind name (.list []) := by
  rw [opened]
  split
  · next v bound => rw [h v bound, if_neg Bool.false_ne_true]
  · rfl

theorem get?_opened_of_ne (b : Bindings) (h : other ≠ name) :
    (b.opened name).get? other = b.get? other := by
  rw [opened]
  split
  · split
    · rfl
    · exact get?_bind_of_ne b _ h
  · exact get?_bind_of_ne b _ h

end Bindings

namespace Value

/-- A value that is no list. -/
def Single (v : Value) : Prop := ∀ items, v ≠ list items

variable {v : Value} {items : List Value}

theorem Single.measure (h : v.Single) : v.measure = ⟨1, 0⟩ := by
  cases v with
  | text s => rfl
  | number x => rfl
  | list items => exact absurd rfl (h items)

theorem measure_list_of_single (h : ∀ v ∈ items, v.Single) :
    (list items).measure = ⟨items.length + 1, 1⟩ := by
  have all : measureItems items = ⟨items.length, 0⟩ := by
    induction items with
    | nil => rfl
    | cons v items ih =>
      obtain ⟨first, later⟩ := List.forall_mem_cons.1 h
      rw [measureItems, first.measure, ih later, List.length_cons, Nat.add_comm]
      rfl
  rw [Value.measure, all]

/-- The text of a list grows by a comma and the text of the new item. -/
theorem display_list_concat (items : List Value) (item : Value) :
    (list (items ++ [item])).display =
      if items = [] then item.display else (list items).display ++ ',' :: item.display := by
  induction items with
  | nil => rfl
  | cons v items ih =>
    cases items with
    | nil => rfl
    | cons next rest =>
      rw [if_neg (List.cons_ne_nil next rest)] at ih
      rw [if_neg (List.cons_ne_nil v (next :: rest))]
      show v.display ++ ',' :: (list (next :: rest ++ [item])).display = _
      rw [ih]
      simp [display, displayItems]

end Value

namespace Action

variable {ε α β : Type}

/-- Bindings of one name, each followed by a line of output: the last one is left. -/
theorem on_forEach_store_print (name : Text) (value : α → Value) (line : α → Text) (as : List α)
    (b : Bindings) :
    (forEach (fun a => do store name (value a); print (line a)) as : Action ε Unit).on b =
      ⟨as.getLast?.elim b fun a => b.bind name (value a), as.map line, .ok ()⟩ := by
  induction as using List.reverseRecOn with
  | nil => rfl
  | append_singleton as a ih =>
    have last : (b.bind name (value a)) =
        ((as.getLast?.elim b fun a => b.bind name (value a)).bind name (value a)) := by
      cases as.getLast? with
      | none => rfl
      | some a' => exact (Bindings.bind_bind ..).symm
    rw [forEach_append, on_bind_of_on_ok ih, forEach_cons, forEach_nil,
      List.getLast?_concat, List.map_append, Option.elim_some, last]
    rfl

/-- Results that are computed one after the other all see the same table. -/
theorem on_mapM_compute (f : Bindings → α → Except ε β) (as : List α) (b : Bindings) :
    (as.mapM fun a => compute fun b => f b a).on b = ⟨b, [], as.mapM (f b)⟩ := by
  induction as with
  | nil => rfl
  | cons a as ih =>
    rw [List.mapM_cons, List.mapM_cons]
    cases first : f b a with
    | error e =>
      have here : (compute fun b => f b a).on b = ⟨b, [], .error e⟩ := by rw [on_compute, first]
      rw [on_bind_of_on_error here, error_bind]
    | ok y =>
      have here : (compute fun b => f b a).on b = ⟨b, [], .ok y⟩ := by rw [on_compute, first]
      rw [on_bind_of_on_ok here, ok_bind]
      cases rest : as.mapM (f b) with
      | error e =>
        rw [rest] at ih
        rw [on_bind_of_on_error ih, error_bind]
        rfl
      | ok ys =>
        rw [rest] at ih
        rw [on_bind_of_on_ok ih, ok_bind]
        rfl

end Action

namespace Statement

open BlockCanvas.Action

variable {config : Config} {line : Text} {b : Bindings}

/-! ### Assignments, output and conditions -/

theorem on_eval_of_ok {e : Text} {v : Value} (value : Expression.evaluate b e = .ok v) :
    (eval e).on b = ⟨b, [], .ok v⟩ := by
  rw [eval, on_compute, value]

theorem on_eval_of_error {e : Text} {fault : Fault}
    (value : Expression.evaluate b e = .error fault) :
    (eval e).on b = ⟨b, [], .error fault⟩ := by
  rw [eval, on_compute, value]

theorem on_assign {name e : Text} {v : Value}
    (cut : Text.splitOnce " = ".toList line = some (name, e))
    (value : Expression.evaluate b (Text.trim e) = .ok v) :
    (assign line).on b = ⟨b.bind (Text.trim name) v, [], .ok .taken⟩ := by
  rw [assign, cut]
  dsimp only
  rw [on_bind_of_on_ok (on_eval_of_ok value)]
  rfl

theorem on_assign_of_ok {name e : Text} {verdict : Verdict}
    (cut : Text.splitOnce " = ".toList line = some (name, e))
    (done : ((assign line).on b).result = .ok verdict) :
    ∃ v, Expression.evaluate b (Text.trim e) = .ok v ∧
      (assign line).on b = ⟨b.bind (Text.trim name) v, [], .ok .taken⟩ := by
  cases value : Expression.evaluate b (Text.trim e) with
  | ok v => exact ⟨v, rfl, on_assign cut value⟩
  | error fault =>
    rw [assign, cut] at done
    dsimp only at done
    rw [on_bind_of_on_error (on_eval_of_error value)] at done
    cases done

theorem on_print {e : Text} {v : Value} (inner : Text.between? "print(".toList [')'] line = some e)
    (value : Expression.evaluate b e = .ok v) :
    (print line).on b = ⟨b, [v.display], .ok .taken⟩ := by
  rw [print, inner]
  dsimp only
  rw [on_bind_of_on_ok (on_eval_of_ok value)]
  rfl

theorem on_ifHeader {condition : Text}
    (inner : Text.between? "if ".toList [':'] line = some condition)
    (truth : Expression.holds b condition = .ok true) :
    (ifHeader line).on b =
      ⟨b, ["Condition \"".toList ++ condition ++ "\" is true".toList], .ok .taken⟩ := by
  rw [ifHeader, inner]
  dsimp only
  rw [on_bind_of_on_ok (by rw [on_compute, truth])]
  rfl

/-! ### Loops -/

/-- What a loop leaves: its variable is bound to the last of its numbers. -/
def looped (b : Bindings) (r : Shape.Range) : Bindings :=
  if r.start < r.stop then b.bind r.var (.number (.ofNat (r.stop - 1))) else b

theorem on_forRange {r : Shape.Range} (shape : Shape.range? line = some r)
    (few : r.stop - r.start ≤ config.maxLoopIterations) :
    (forRange config line).on b = ⟨looped b r, (List.range' r.start (r.stop - r.start)).map
      fun i => r.var ++ " = ".toList ++ Text.ofNat i, .ok .taken⟩ := by
  have turns := on_forEach_store_print (ε := Fault) r.var (fun i => .number (.ofNat i))
    (fun i => r.var ++ " = ".toList ++ Text.ofNat i) (List.range' r.start (r.stop - r.start)) b
  have last : (List.range' r.start (r.stop - r.start)).getLast? =
      if r.start < r.stop then some (r.stop - 1) else none := by
    rw [List.getLast?_range']
    split <;> split <;> first | rfl | omega | (congr 1; omega)
  rw [forRange, shape]
  dsimp only
  rw [if_neg (Nat.not_lt.2 few), on_bind_of_on_ok turns, last, looped]
  split <;> simp

theorem on_forRange_of_lt {r : Shape.Range} (shape : Shape.range? line = some r)
    (many : config.maxLoopIterations < r.stop - r.start) :
    (forRange config line).on b = ⟨b, [], .error
      (.rangeTooLong r.start r.stop (r.stop - r.start) config.maxLoopIterations)⟩ := by
  rw [forRange, shape]
  dsimp only
  rw [if_pos many, on_fail]

theorem forRange_of_ok {r : Shape.Range} {verdict : Verdict} (shape : Shape.range? line = some r)
    (done : ((forRange config line).on b).result = .ok verdict) :
    r.stop - r.start ≤ config.maxLoopIterations := by
  rw [← Nat.not_lt]
  intro many
  rw [on_forRange_of_lt shape many] at done
  cases done

/-! ### Appends -/

theorem appended_eq_ok {name : Text} {list item grown : Value}
    (h : appended config name list item = .ok grown) :
    ∃ items, list = .list items ∧ grown = .list (items ++ [item]) := by
  unfold appended at h
  split at h
  case h_1 items =>
    dsimp only at h
    split at h
    · cases h
    · split at h
      · cases h
      · cases h
        exact ⟨items, rfl, rfl⟩
  case h_2 => cases h

/-- A list of single values takes another one if there is room for it beside the list itself. -/
theorem appended_single (config : Config) (n : Text) {items : List Value} {v : Value}
    (single : ∀ w ∈ items, w.Single) (last : v.Single) :
    appended config n (.list items) v =
      if items.length + 2 ≤ config.maxListItems then .ok (.list (items ++ [v]))
      else .error (.listTooLarge n config.maxListItems) := by
  rw [appended, Value.measure_list_of_single single, last.measure]
  dsimp only
  have shallow : ¬ maxListDepth < 0 + 1 := by decide
  rw [if_neg shallow]
  split <;> split <;> first | rfl | omega

theorem on_listOf (b : Bindings) (name : Text) : ∃ v, (b.opened name).get? name = some v ∧
    (listOf name).on b = ⟨b.opened name, [], .ok v⟩ := by
  rw [listOf, on_bind_of_ok (a := b.get? name) rfl, Bindings.opened]
  cases bound : b.get? name with
  | none => exact ⟨.list [], Bindings.get?_bind_self .., rfl⟩
  | some v =>
    dsimp only
    cases truth : v.isTruthy with
    | true => exact ⟨v, bound, rfl⟩
    | false => exact ⟨.list [], Bindings.get?_bind_self .., rfl⟩

/-- An append whose item has a value makes the list longer by it, or faults. -/
theorem on_append (config : Config) {name e : Text} {list item : Value}
    (shape : Shape.append? line = some (name, e))
    (bound : (b.opened name).get? name = some list)
    (value : Expression.evaluate (b.opened name) e = .ok item) :
    (append config line).on b =
      match appended config name list item with
      | .ok grown => ⟨(b.opened name).bind name grown,
          ["Added ".toList ++ item.display ++ " to ".toList ++ name], .ok .taken⟩
      | .error fault => ⟨b.opened name, [], .error fault⟩ := by
  obtain ⟨v, bound', found⟩ := on_listOf b name
  obtain rfl : v = list := Option.some.inj (bound'.symm.trans bound)
  rw [append, shape]
  dsimp only
  rw [on_bind_of_on_ok found, on_bind_of_on_ok (on_eval_of_ok value)]
  cases grown : appended config name v item with
  | ok grown' => rfl
  | error fault => rfl

/-- An append that comes to an end made a list longer. -/
theorem on_append_of_ok {name e : Text} {verdict : Verdict}
    (shape : Shape.append? line = some (name, e))
    (done : ((append config line).on b).result = .ok verdict) :
    ∃ items item, (b.opened name).get? name = some (.list items) ∧
      Expression.evaluate (b.opened name) e = .ok item ∧
      (append config line).on b = ⟨(b.opened name).bind name (.list (items ++ [item])),
        ["Added ".toList ++ item.display ++ " to ".toList ++ name], .ok .taken⟩ := by
  obtain ⟨list, bound, found⟩ := on_listOf b name
  cases value : Expression.evaluate (b.opened name) e with
  | error fault =>
    rw [append, shape] at done
    dsimp only at done
    rw [on_bind_of_on_ok found, on_bind_of_on_error (on_eval_of_error value)] at done
    cases done
  | ok item =>
    have whole := on_append config shape bound value
    rw [whole] at done ⊢
    cases grown : appended config name list item with
    | error fault =>
      rw [grown] at done
      cases done
    | ok grown' =>
      obtain ⟨items, rfl, rfl⟩ := appended_eq_ok grown
      exact ⟨items, item, bound, rfl, rfl⟩

/-! ### List literals -/

/-- What a list literal shows for the values of its elements. -/
def listShown (vs : List Value) : Text :=
  "List created: [".toList ++ ", ".toList.intercalate (vs.map Value.display) ++ [']']

theorem on_listLiteral {inner : Text} (shape : Text.between? ['['] [']'] line = some inner) :
    (listLiteral line).on b =
      match (Text.splitChar ',' inner).mapM fun e => Expression.evaluate b (Text.trim e) with
      | .ok vs => ⟨b, [listShown vs], .ok .taken⟩
      | .error fault => ⟨b, [], .error fault⟩ := by
  have values := on_mapM_compute (fun b e => Expression.evaluate b (Text.trim e))
    (Text.splitChar ',' inner) b
  rw [listLiteral, shape]
  dsimp only
  cases all : (Text.splitChar ',' inner).mapM fun e => Expression.evaluate b (Text.trim e) with
  | ok vs =>
    rw [all] at values
    exact on_bind_of_on_ok values
  | error fault =>
    rw [all] at values
    exact on_bind_of_on_error values

end Statement
end BlockCanvas
