import BlockCanvas.Program.Run
import BlockCanvas.Proofs.Except
import BlockCanvas.Proofs.Number.Rounding
import BlockCanvas.Proofs.Program.Outcome

/-!
# Invariants of the variable table

A property of values that holds of everything a program can write down, and that appending to a list
keeps, holds of every value in the table, at every moment of every run: `InvariantOn.keeps_perform`.
What a program can write down are its texts, the numbers that operations give, which are finite, and
the literals that stand on its lines.  `InvariantOn.evaluate` is the part of it that speaks of
expressions, and `Change.all` the part that speaks of lines.
-/

namespace BlockCanvas

/-- Every value in the table has a property. -/
def Bindings.All (P : Value → Prop) (b : Bindings) : Prop := ∀ entry ∈ b.entries, P entry.2

namespace Bindings

variable {P : Value → Prop} {b : Bindings}

theorem all_empty : All P empty := by
  intro entry h
  cases h

theorem All.bind (h : All P b) (name : Text) {v : Value} (hv : P v) : All P (b.bind name v) := by
  intro entry he
  rcases List.mem_cons.1 he with rfl | he
  · exact hv
  · exact h entry (List.mem_filter.1 he).1

theorem All.get? (h : All P b) {name : Text} {v : Value} (hv : b.get? name = some v) : P v := by
  obtain ⟨entry, he, rfl⟩ := Option.map_eq_some_iff.1 hv
  exact h entry (List.mem_of_find?_eq_some he)

theorem All.opened (h : All P b) (nil : P (.list [])) (name : Text) : All P (b.opened name) := by
  unfold Bindings.opened
  split
  · split
    · exact h
    · exact h.bind name nil
  · exact h.bind name nil

end Bindings

namespace Shape

variable {r : Range}

theorem lt_of_bound? {digits : Text} {n : Nat} (h : bound? digits = some n) : n < 2 ^ 63 := by
  unfold bound? at h
  dsimp only at h
  split at h
  case isTrue small =>
    cases h
    exact small
  case isFalse => cases h

theorem stop_lt_of_boundsHere? {var after : Text} (h : boundsHere? var after = some r) :
    r.stop < 2 ^ 63 := by
  unfold boundsHere? at h
  dsimp only at h
  split at h
  · cases h
  · split at h
    · cases h
    · split at h
      · cases h
      · next first =>
        split at h
        · cases h
          exact lt_of_bound? first
        · obtain ⟨stop, second, rfl⟩ := Option.map_eq_some_iff.1 h
          exact lt_of_bound? second

/-- The end of a loop is below `2 ^ 63`. -/
theorem stop_lt_of_range? {line : Text} (h : range? line = some r) : r.stop < 2 ^ 63 := by
  obtain ⟨⟨before, after⟩, -, here⟩ := List.exists_of_findSome?_eq_some h
  unfold rangeHere? at here
  split at here
  · cases here
  · split at here
    · cases here
    · exact stop_lt_of_boundsHere? here

end Shape

namespace Expression

/-- An operation on numbers that has a result gives a finite one. -/
theorem compute_eq_ok {op : Operator} {x y : Binary64} {v : Value} (h : compute op x y = .ok v) :
    ∃ z : Binary64, z.isFinite ∧ v = .number z := by
  have key {z : Binary64} (hz : finite x op y z = .ok v) :
      ∃ z : Binary64, z.isFinite ∧ v = .number z := by
    unfold finite at hz
    split at hz
    · next hf =>
      cases hz
      exact ⟨z, hf, rfl⟩
    · cases hz
  unfold compute at h
  split at h
  case h_4 =>
    split at h
    · cases h
    · exact key h
  all_goals exact key h

/-- An operation gives a finite number, or it is a sum that joins two texts. -/
theorem operate_eq_ok {op : Operator} {left right v : Value} (h : operate op left right = .ok v) :
    op = .add ∧ v = .text (left.display ++ right.display) ∨
      ∃ z : Binary64, z.isFinite ∧ v = .number z := by
  unfold operate at h
  split at h
  · exact .inr (compute_eq_ok h)
  · cases h
    exact .inl ⟨rfl, rfl⟩
  · rcases bind_eq_ok.1 h with ⟨x, -, h⟩
    rcases bind_eq_ok.1 h with ⟨y, -, h⟩
    exact .inr (compute_eq_ok h)

/-- An expression is an atom, or a text without operators, or it is cut in two, whose values the
operator takes. -/
theorem evaluateIn_induction {b : Bindings} {motive : Text → Value → Prop}
    (atom : ∀ {e v}, atom? b e = some v → motive e v) (text : ∀ e, motive e (.text e))
    (operation : ∀ {e op left right l r v}, cut? e = some (op, left, right) → motive left l →
      motive right r → operate op l r = .ok v → motive e v)
    (room : Nat) {e : Text} {v : Value} (value : evaluateIn b room e = .ok v) : motive e v := by
  induction room generalizing e v with
  | zero =>
    unfold evaluateIn at value
    split at value
    · next found =>
      cases value
      exact atom found
    · split at value
      · cases value
        exact text e
      · cases value
  | succ room ih =>
    unfold evaluateIn at value
    split at value
    · next found =>
      cases value
      exact atom found
    · split at value
      · cases value
        exact text e
      · next cut =>
        rcases bind_eq_ok.1 value with ⟨l, first, value⟩
        rcases bind_eq_ok.1 value with ⟨r, second, value⟩
        exact operation cut (ih first) (ih second) value

end Expression

namespace Statement

variable {config : Config} {b b' : Bindings} {line : Text} {P : Value → Prop}

theorem all_looped (hb : b.All P) (number : ∀ x : Binary64, x.isFinite = true → P (.number x))
    {r : Shape.Range} (shape : Shape.range? line = some r) : (looped b r).All P := by
  have limit := Shape.stop_lt_of_range? shape
  have last : P (.number (.ofNat (r.stop - 1))) := number _ (Binary64.isFinite_ofNat (by omega))
  unfold looped
  split
  · exact hb.bind _ last
  · exact hb

/-- The values in the table still have a property after a line if it holds of what the line
computes, of finite numbers, of the empty list and of the lists that appends make. -/
theorem Change.all (change : Change config b line b') (hb : b.All P)
    (computed : ∀ {b e v}, b.All P → e <:+: line → Expression.evaluate b e = .ok v → P v)
    (number : ∀ x : Binary64, x.isFinite = true → P (.number x)) (nil : P (.list []))
    (grown : ∀ {name list item longer}, P list → P item →
      Statement.appended config name list item = .ok longer → P longer) : b'.All P := by
  cases change with
  | same => exact hb
  | assigned cut value =>
    have inside := (Text.trim_infix _).trans (Text.infix_of_splitOnce cut).2
    exact hb.bind _ (computed hb inside value)
  | looped shape => exact all_looped hb number shape
  | opened shape => exact hb.opened nil _
  | @appended name _ _ _ _ shape bound value grows =>
    have opened := hb.opened nil name
    have item := computed opened (Shape.infix_of_append? shape).2 value
    exact opened.bind name (grown (opened.get? bound) item grows)

end Statement

/-- A property of values that no program leaves whose lines are made of texts with the property
`W`. -/
structure InvariantOn (config : Config) (W : Text → Prop) (P : Value → Prop) : Prop where
  text : ∀ s, P (.text s)
  literal : ∀ e x, W e → Binary64.literal? e = some x → P (.number x)
  finite : ∀ x : Binary64, x.isFinite = true → P (.number x)
  nil : P (.list [])
  appended : ∀ name list item grown, P list → P item →
    Statement.appended config name list item = .ok grown → P grown

/-- A property of values that no program leaves. -/
abbrev Invariant (config : Config) (P : Value → Prop) : Prop :=
  InvariantOn config (fun _ => True) P

namespace InvariantOn

open Statement BlockCanvas.Action

variable {config : Config} {W : Text → Prop} {P : Value → Prop} {b : Bindings}

/-! ### Expressions -/

theorem atom? (h : InvariantOn config W P) (hb : b.All P) {e : Text} (read : W e) {v : Value}
    (hv : Expression.atom? b e = some v) : P v := by
  unfold Expression.atom? at hv
  split at hv
  · cases hv
    exact h.text _
  · split at hv
    · next x hx =>
      cases hv
      exact h.literal e x read hx
    · exact hb.get? hv

theorem operate (h : InvariantOn config W P) {op : Operator} {left right v : Value}
    (hv : Expression.operate op left right = .ok v) : P v := by
  rcases Expression.operate_eq_ok hv with ⟨-, rfl⟩ | ⟨z, number, rfl⟩
  · exact h.text _
  · exact h.finite z number

/-- Whatever the parts of an expression are, what the operator gives that is applied last has the
property. -/
theorem evaluate (h : InvariantOn config W P) (hb : b.All P) {e : Text} (read : W e) {v : Value}
    (hv : Expression.evaluate b e = .ok v) : P v := by
  refine Expression.evaluateIn_induction (motive := fun e v => W e → P v) ?_ ?_ ?_ _ hv read
  · intro e v atom read
    exact h.atom? hb read atom
  · intro e _
    exact h.text e
  · intro e op left right l r v _ _ _ value _
    exact h.operate value

/-! ### Lines and runs -/

theorem keeps_step (h : InvariantOn config W P) {line : Text} (read : line.Allows W) :
    Keeps (Bindings.All P) (fun _ => True) (step config line) := by
  intro b hb
  have kept := (change_step config b line).all hb
    (fun hb inside => h.evaluate hb (read _ inside)) h.finite h.nil (h.appended _ _ _ _)
  exact ⟨kept, fun _ _ => trivial⟩

/-- The values in the table keep the property whatever lines are run that are made of such texts,
and also where a fault ends the run. -/
theorem keeps_perform (h : InvariantOn config W P) {lines : List Text}
    (read : ∀ line ∈ lines, line.Allows W) :
    Keeps (Bindings.All P) (fun _ => True) (Program.perform config lines) :=
  keeps_forEach fun line member => h.keeps_step (read line member)

end InvariantOn

/-- The values in the table keep the property whatever lines are run. -/
theorem Invariant.keeps_perform {config : Config} {P : Value → Prop} (h : Invariant config P)
    (lines : List Text) :
    Action.Keeps (Bindings.All P) (fun _ => True) (Program.perform config lines) :=
  InvariantOn.keeps_perform h fun _ _ _ _ => trivial

end BlockCanvas
