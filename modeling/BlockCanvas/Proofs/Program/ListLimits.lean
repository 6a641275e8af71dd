import BlockCanvas.Proofs.Program.Invariant

/-!
# Limits of lists

No list of a run holds more values than `Config.maxListItems` or nests deeper than `maxListDepth`.
An append measures what the list would become from its parts, and `measure_list_concat` shows that
this is what it becomes.  A single value counts one, so a limit of zero acts as one.

Main statement: `withinLimits_of_mem_entries`.
-/

namespace BlockCanvas
namespace Value

/-- The values in two runs of items are those of the first and those of the second. -/
theorem measureItems_append (items more : List Value) : measureItems (items ++ more) =
    ⟨(measureItems items).count + (measureItems more).count,
      Nat.max (measureItems items).depth (measureItems more).depth⟩ := by
  induction items with
  | nil => simp [measureItems]
  | cons v items ih =>
    simp only [List.cons_append, measureItems, ih, Measure.mk.injEq]
    exact ⟨(Nat.add_assoc ..).symm, (Nat.max_assoc ..).symm⟩

theorem measure_list_concat (items : List Value) (item : Value) :
    (list (items ++ [item])).measure =
      ⟨(list items).measure.count + item.measure.count,
        Nat.max (list items).measure.depth (item.measure.depth + 1)⟩ := by
  simp only [measure, measureItems_append, measureItems, Measure.mk.injEq, Nat.max_def]
  constructor
  · omega
  · split <;> split <;> split <;> omega

/-- The value holds at most as many values as a list may, and nests at most as deep. -/
structure WithinLimits (config : Config) (v : Value) : Prop where
  count : v.measure.count ≤ max 1 config.maxListItems
  depth : v.measure.depth ≤ maxListDepth

theorem withinLimits_text (config : Config) (s : Text) : WithinLimits config (text s) :=
  ⟨Nat.le_max_left .., Nat.zero_le _⟩

theorem withinLimits_number (config : Config) (x : Binary64) : WithinLimits config (number x) :=
  ⟨Nat.le_max_left .., Nat.zero_le _⟩

theorem withinLimits_nil (config : Config) : WithinLimits config (list []) :=
  ⟨Nat.le_max_left .., by decide⟩

/-- The checks of an append keep the list it makes within the limits. -/
theorem withinLimits_appended {config : Config} {name : Text} {target item grown : Value}
    (ht : WithinLimits config target)
    (h : Statement.appended config name target item = .ok grown) : WithinLimits config grown := by
  unfold Statement.appended at h
  split at h
  case h_1 items =>
    dsimp only at h
    split at h
    · cases h
    · split at h
      · cases h
      · cases h
        have depth := ht.depth
        constructor <;> simp only [measure_list_concat, Nat.max_def] <;> split <;> omega
  case h_2 => cases h

theorem invariant_withinLimits (config : Config) : Invariant config (WithinLimits config) where
  text := withinLimits_text config
  literal _ x _ _ := withinLimits_number config x
  finite x _ := withinLimits_number config x
  nil := withinLimits_nil config
  appended _ _ _ _ ht _ h := withinLimits_appended ht h

end Value

namespace Program

/-- After every number of lines of every program, and also where a fault ended them, each value in
the table counts at most `max 1 config.maxListItems` values and nests at most 64 deep. -/
theorem withinLimits_of_mem_entries (config : Config) (source : Text) (count : Nat) (name : Text)
    (v : Value) (h : (name, v) ∈
      ((perform config ((programLines source).take count)).on .empty).bindings.entries) :
    v.measure.count ≤ max 1 config.maxListItems ∧ v.measure.depth ≤ 64 := by
  have kept := (Value.invariant_withinLimits config).keeps_perform
    ((programLines source).take count) .empty Bindings.all_empty
  have limits := kept.1 (name, v) h
  exact ⟨limits.count, limits.depth⟩

/-- A list that was appended to itself is as large as the limit of four allows, so that the third
line faults. -/
theorem withinLimits_of_mem_entries_self_append : ∃ name v, (name, v) ∈
      ((perform { maxListItems := 4 } ((programLines
        "xs.append(a)\nxs.append(xs)\nxs.append(b)".toList).take 3)).on .empty).bindings.entries ∧
    v.measure = ⟨4, 2⟩ ∧ v.measure.count ≤ max 1 4 ∧ v.measure.depth ≤ 64 := by
  have full : ∃ entry ∈ ((perform { maxListItems := 4 } ((programLines
      "xs.append(a)\nxs.append(xs)\nxs.append(b)".toList).take 3)).on .empty).bindings.entries,
      entry.2.measure = ⟨4, 2⟩ := by
    decide +kernel
  obtain ⟨⟨name, v⟩, member, measure⟩ := full
  exact ⟨name, v, member, measure, withinLimits_of_mem_entries _ _ _ name v member⟩

end Program
end BlockCanvas
