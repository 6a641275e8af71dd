import BlockCanvas.Proofs.Except
import BlockCanvas.Proofs.Program.Chain

/-!
# The depth of an expression

An expression is cut in two, and its parts again, until atoms are left: a tree (`Cuts`), whose shape
depends on which parts are quoted, numbers or bound names.  Each cut takes at least the operator
away, so the cutting ends, and `evaluateFully` is the value of an expression however deep its tree
is.  Main statement: `evaluate_of_depth`, the limit on the depth is noticed by the expressions with
deeper trees and by no others.
-/

namespace BlockCanvas
namespace Expression

/-- Each part of a cut is shorter than the expression, by the operator at least. -/
theorem length_of_cut? {e left right : Text} {op : Operator}
    (h : cut? e = some (op, left, right)) : left.length + right.length + 3 = e.length := by
  obtain ⟨o, -, ho⟩ := List.exists_of_findSome?_eq_some h
  obtain ⟨sides, cut, same⟩ := Option.map_eq_some_iff.1 ho
  cases same
  have whole := congrArg List.length (Text.splitOnce_append cut)
  simp only [Operator.token, List.length_append, List.length_cons, List.length_nil] at whole
  omega

/-- The value of an expression, however deep its operators nest. -/
def evaluateFully (b : Bindings) (e : Text) : Except Fault Value :=
  match atom? b e with
  | some v => .ok v
  | none =>
    match _h : cut? e with
    | none => .ok (.text e)
    | some (op, left, right) => do
      let l ← evaluateFully b left
      let r ← evaluateFully b right
      operate op l r
termination_by e.length
decreasing_by all_goals have := length_of_cut? _h; omega

/-- How an expression is cut: it is left whole, or cut in two. -/
inductive Cuts where
  | whole
  | cut (left right : Cuts)

/-- The most cuts on a way from the whole expression to a part that is left whole. -/
def Cuts.depth : Cuts → Nat
  | whole => 0
  | cut left right => max left.depth right.depth + 1

/-- The cuts that are made in an expression, up to its atoms. -/
def cuts (b : Bindings) (e : Text) : Cuts :=
  match atom? b e with
  | some _ => .whole
  | none =>
    match _h : cut? e with
    | none => .whole
    | some (_, left, right) => .cut (cuts b left) (cuts b right)
termination_by e.length
decreasing_by all_goals have := length_of_cut? _h; omega

/-- The cuts that are made before the first fault: where the left part faults the right one is not
looked at. -/
def reachedCuts (b : Bindings) (e : Text) : Cuts :=
  match atom? b e with
  | some _ => .whole
  | none =>
    match _h : cut? e with
    | none => .whole
    | some (_, left, right) =>
      match evaluateFully b left with
      | .ok _ => .cut (reachedCuts b left) (reachedCuts b right)
      | .error _ => .cut (reachedCuts b left) .whole
termination_by e.length
decreasing_by all_goals have := length_of_cut? _h; omega

variable {b : Bindings}

theorem three_mul_depth_le (b : Bindings) (e : Text) : 3 * (cuts b e).depth ≤ e.length := by
  fun_induction cuts b e with
  | case1 => simp [Cuts.depth]
  | case2 => simp [Cuts.depth]
  | case3 e noAtom op left right cut ihl ihr =>
    have := length_of_cut? cut
    rw [Cuts.depth]
    omega

section Cut

variable {e left right : Text} {op : Operator} (noAtom : atom? b e = none)
  (cut : cut? e = some (op, left, right))
include noAtom cut

theorem evaluateFully_of_cut? :
    evaluateFully b e = (do
      let l ← evaluateFully b left
      let r ← evaluateFully b right
      operate op l r) := by
  rw [evaluateFully, noAtom]
  dsimp only
  split
  · next e => rw [cut] at e; cases e
  · next e => rw [cut] at e; cases e; rfl

theorem evaluateIn_zero_of_cut? : evaluateIn b 0 e = .error .tooManyOperators := by
  unfold evaluateIn
  rw [noAtom, cut]

theorem evaluateIn_succ_of_cut? (room : Nat) :
    evaluateIn b (room + 1) e = (do
      let l ← evaluateIn b room left
      let r ← evaluateIn b room right
      operate op l r) := by
  conv => lhs; unfold evaluateIn
  rw [noAtom, cut]

end Cut

theorem cuts_of_cut? {e left right : Text} {op : Operator} (noAtom : atom? b e = none)
    (cut : cut? e = some (op, left, right)) : cuts b e = .cut (cuts b left) (cuts b right) := by
  rw [cuts, noAtom]
  dsimp only
  split
  · next e => rw [cut] at e; cases e
  · next e => rw [cut] at e; cases e; rfl

/-! ### Sums -/

namespace Chain

/-- A sum of `n + 1` equal atoms. -/
def sum (a : Atom) : Nat → Chain
  | 0 => .atom a
  | n + 1 => .cons a .add (sum a n)

theorem depth_cuts_atom (b : Bindings) (a : Atom) : (cuts b a.text).depth = 0 := by
  have noCut : Expression.cut? a.text = none := cut?_text (.atom a)
  rw [cuts]
  split
  · rfl
  · split
    · rfl
    · next cut => rw [noCut] at cut; cases cut

/-- The parts of a sum are cut off one after the other. -/
theorem depth_cuts_sum (names : ∀ entry ∈ b.entries, ' ' ∉ entry.1) (a : Atom) (n : Nat) :
    (cuts b (sum a n).text).depth = n := by
  induction n with
  | zero => exact depth_cuts_atom b a
  | succ n ih =>
    have first : (sum a (n + 1)).cut? = some (.add, .atom a, sum a n) := rfl
    have cut := cut?_text (sum a (n + 1))
    rw [first] at cut
    have noAtom : atom? b (sum a (n + 1)).text = none := atom?_text_cons names a .add (sum a n)
    rw [cuts_of_cut? noAtom cut, Cuts.depth, ih]
    show max (cuts b a.text).depth n + 1 = n + 1
    rw [depth_cuts_atom, Nat.zero_max]

/-- The number one. -/
def one : Atom := ⟨['1'], by decide, by simp [Text.isBlank], by decide, by decide⟩

end Chain

/-! ### The limit -/

/-- As long as there is room for the cuts that are reached the limit is not noticed. -/
theorem evaluateIn_of_depth_le {room : Nat} {e : Text} (h : (reachedCuts b e).depth ≤ room) :
    evaluateIn b room e = evaluateFully b e := by
  -- along the cuts that are reached: after a fault on the left no room is needed on the right
  fun_induction reachedCuts b e generalizing room with
  | case1 e v atom =>
    unfold evaluateIn evaluateFully
    rw [atom]
  | case2 e noAtom noCut =>
    unfold evaluateIn
    rw [evaluateFully, noAtom, noCut]
  | case3 e noAtom op left right cut l value ihl ihr =>
    rw [Cuts.depth] at h
    obtain ⟨room, rfl⟩ := Nat.exists_eq_succ_of_ne_zero (Nat.ne_zero_of_lt h)
    rw [evaluateIn_succ_of_cut? noAtom cut, evaluateFully_of_cut? noAtom cut, ihl (by omega),
      ihr (by omega)]
  | case4 e noAtom op left right cut fault value ihl =>
    rw [Cuts.depth] at h
    obtain ⟨room, rfl⟩ := Nat.exists_eq_succ_of_ne_zero (Nat.ne_zero_of_lt h)
    rw [evaluateIn_succ_of_cut? noAtom cut, evaluateFully_of_cut? noAtom cut, ihl (by omega), value,
      error_bind, error_bind]

/-- Without room for all cuts that are reached the fault is that of the limit. -/
theorem evaluateIn_of_lt_depth {room : Nat} {e : Text} (h : room < (reachedCuts b e).depth) :
    evaluateIn b room e = .error .tooManyOperators := by
  fun_induction reachedCuts b e generalizing room with
  | case1 => cases h
  | case2 => cases h
  | case3 e noAtom op left right cut l value ihl ihr =>
    rw [Cuts.depth] at h
    cases room with
    | zero => exact evaluateIn_zero_of_cut? noAtom cut
    | succ room =>
      rw [evaluateIn_succ_of_cut? noAtom cut]
      by_cases leftDeep : room < (reachedCuts b left).depth
      · rw [ihl leftDeep, error_bind]
      · rw [evaluateIn_of_depth_le (Nat.le_of_not_lt leftDeep), value, ok_bind, ihr (by omega),
          error_bind]
  | case4 e noAtom op left right cut fault value ihl =>
    rw [Cuts.depth, Cuts.depth, Nat.max_zero] at h
    cases room with
    | zero => exact evaluateIn_zero_of_cut? noAtom cut
    | succ room =>
      rw [evaluateIn_succ_of_cut? noAtom cut, ihl (by omega), error_bind]

theorem depth_reachedCuts_le (b : Bindings) (e : Text) :
    (reachedCuts b e).depth ≤ (cuts b e).depth := by
  fun_induction reachedCuts b e with
  | case1 => simp [Cuts.depth]
  | case2 => simp [Cuts.depth]
  | case3 e noAtom op left right cut l value ihl ihr =>
    rw [cuts_of_cut? noAtom cut, Cuts.depth, Cuts.depth]
    omega
  | case4 e noAtom op left right cut fault value ihl =>
    rw [cuts_of_cut? noAtom cut, Cuts.depth, Cuts.depth, Cuts.depth]
    omega

/-- An expression with a value has no fault that hides cuts. -/
theorem reachedCuts_of_ok {e : Text} {v : Value} (h : evaluateFully b e = .ok v) :
    reachedCuts b e = cuts b e := by
  fun_induction reachedCuts b e generalizing v with
  | case1 e w atom => rw [cuts, atom]
  | case2 e noAtom noCut => rw [cuts, noAtom, noCut]
  | case3 e noAtom op left right cut l value ihl ihr =>
    rw [evaluateFully_of_cut? noAtom cut, value, ok_bind] at h
    obtain ⟨r, value', -⟩ := bind_eq_ok.1 h
    rw [cuts_of_cut? noAtom cut, ihl value, ihr value']
  | case4 e noAtom op left right cut fault value ihl =>
    rw [evaluateFully_of_cut? noAtom cut, value] at h
    cases h

/-- The limit on the depth only cuts off expressions that are too deep.  Cutting an expression
ends, with at most one cut inside the other for three characters.  If at most 256 cuts are inside
one another, the value or the fault is that of the evaluation without a limit; if there are more,
the evaluation faults.  The fault is that of the limit if more than 256 cuts inside one another are
reached before any other fault; otherwise the limit is not noticed. -/
theorem evaluate_of_depth (b : Bindings) (e : Text) :
    3 * (cuts b e).depth ≤ e.length ∧
      ((cuts b e).depth ≤ 256 → evaluate b e = evaluateFully b e) ∧
      (256 < (cuts b e).depth → ∃ fault, evaluate b e = .error fault) ∧
      evaluate b e = if (reachedCuts b e).depth ≤ 256 then evaluateFully b e
        else .error .tooManyOperators := by
  have less := depth_reachedCuts_le b e
  refine ⟨three_mul_depth_le b e, fun h => evaluateIn_of_depth_le (less.trans h), fun h => ?_, ?_⟩
  · by_cases reached : (reachedCuts b e).depth ≤ 256
    · have same : evaluate b e = evaluateFully b e := evaluateIn_of_depth_le reached
      cases value : evaluateFully b e with
      | error fault => exact ⟨fault, same.trans value⟩
      | ok v =>
        rw [reachedCuts_of_ok value] at reached
        exact absurd h (Nat.not_lt.2 reached)
    · exact ⟨_, evaluateIn_of_lt_depth (Nat.lt_of_not_le reached)⟩
  · split
    case isTrue reached => exact evaluateIn_of_depth_le reached
    case isFalse beyond => exact evaluateIn_of_lt_depth (Nat.lt_of_not_le beyond)

theorem evaluate_of_depth_sum :
    (cuts .empty (Chain.sum Chain.one 256).text).depth ≤ 256 ∧
      evaluate .empty (Chain.sum Chain.one 256).text =
        evaluateFully .empty (Chain.sum Chain.one 256).text ∧
      256 < (cuts .empty (Chain.sum Chain.one 257).text).depth ∧
      ∃ fault, evaluate .empty (Chain.sum Chain.one 257).text = .error fault := by
  have names : ∀ entry ∈ Bindings.empty.entries, ' ' ∉ entry.1 := fun _ h => nomatch h
  have shallow : (cuts .empty (Chain.sum Chain.one 256).text).depth ≤ 256 :=
    (Chain.depth_cuts_sum names Chain.one 256).le
  have deep : 256 < (cuts .empty (Chain.sum Chain.one 257).text).depth := by
    rw [Chain.depth_cuts_sum names Chain.one 257]
    decide
  exact ⟨shallow, (evaluate_of_depth .empty _).2.1 shallow, deep,
    (evaluate_of_depth .empty _).2.2.1 deep⟩

end Expression
end BlockCanvas
