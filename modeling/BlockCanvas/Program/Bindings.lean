import BlockCanvas.Program.Value

/-!
# Variable bindings

The variable table of a run.  Main statements: `get?_bind_self` and `get?_bind_of_ne`, a name reads
as what it was bound to last.
-/

namespace BlockCanvas

/-- Names with their values, each name once. -/
structure Bindings where
  entries : List (Text × Value)

namespace Bindings

def empty : Bindings := ⟨[]⟩

/-- The value of a name. -/
def get? (b : Bindings) (name : Text) : Option Value :=
  (b.entries.find? fun e => e.1 == name).map (·.2)

/-- Gives a name a value, which replaces the one it had. -/
def bind (b : Bindings) (name : Text) (v : Value) : Bindings :=
  ⟨(name, v) :: b.entries.filter fun e => e.1 != name⟩

theorem get?_empty (name : Text) : empty.get? name = none := rfl

theorem get?_bind_self (b : Bindings) (name : Text) (v : Value) :
    (b.bind name v).get? name = some v := by
  simp [get?, bind]

theorem get?_bind_of_ne (b : Bindings) {name other : Text} (v : Value) (h : other ≠ name) :
    (b.bind name v).get? other = b.get? other := by
  have h' : ¬ name = other := fun e => h e.symm
  simp only [get?, bind, List.find?_cons, List.find?_filter]
  congr 1
  simp only [beq_eq_false_iff_ne.2 h']
  congr 1
  funext e
  by_cases he : e.1 = other
  · simp [he, h]
  · simp [he]

end Bindings
end BlockCanvas
