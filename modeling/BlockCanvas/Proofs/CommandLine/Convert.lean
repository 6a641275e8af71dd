import BlockCanvas.CommandLine.Command
import BlockCanvas.Proofs.Block.Rows
import BlockCanvas.Proofs.Document.Binary
import BlockCanvas.Proofs.Document.Places

/-!
# Converted workspaces

What `generate` and `run` answer for a file depends on the workspace in it alone (`Shows`).  A
binary document gives the same workspace back.  A JSON document gives it back with other places
where a place is not read as it was written: the program is then the same as long as the blocks
stay in their order.  A block whose place is not finite is lost: its document cannot be read.

Main statement: `perform_convert`.
-/

namespace BlockCanvas

theorem Directory.read?_write? {d d' : Directory} {path : Text} {contents : Bytes}
    (h : d.write? path contents = some d') : d'.read? path = some contents := by
  unfold write? at h
  split at h
  · next name found =>
    cases h
    simp [read?, found]
  · cases h

/-! ### Programs of reread workspaces -/

/-- The places that are read leave the blocks in the order of those that were written. -/
def Workspace.RowsKept (w : Workspace) : Prop :=
  ∀ a ∈ w.blocks, ∀ b ∈ w.blocks, a.y.rank ≤ b.y.rank ↔ a.reread.y.rank ≤ b.reread.y.rank

instance (w : Workspace) : Decidable w.RowsKept :=
  inferInstanceAs (Decidable (∀ a ∈ w.blocks, ∀ b ∈ w.blocks, _ ↔ _))

/-- A program is made of the blocks in their order, whatever their places. -/
theorem Program.synthesize_reread {w : Workspace} (kept : w.RowsKept) :
    synthesize w.reread.blocks = synthesize w.blocks :=
  synthesize_map kept fun _ => rfl

namespace CommandLine

theorem warnings_reread (w : Workspace) : warnings w.reread = warnings w := by
  rw [warnings, Workspace.reread, List.filterMap_map]
  rfl

theorem runLines_reread {w : Workspace} (kept : w.RowsKept) (o : Options) :
    runLines w.reread o = runLines w o := by
  have empty : w.reread.isEmpty = w.isEmpty := List.isEmpty_map
  simp only [runLines, Session.consoleOf_eq, Program.synthesize_reread kept, empty]

/-! ### Answers -/

/-- The commands show this workspace for a file. -/
structure Shows (d : Directory) (path : Text) (w : Workspace) : Prop where
  generate : (Command.generate path).perform d =
    (⟨0, outputLines [Program.synthesize w.blocks], warnings w⟩, d)
  run : ∀ o, (Command.run path o).perform d = (⟨0, outputLines (runLines w o), warnings w⟩, d)

/-- The answer for a file that is not read as a workspace. -/
def refusal (path : Text) : Response := failure [] ("Failed to load workspace ".toList ++ path)

/-- The commands refuse a file. -/
structure Refuses (d : Directory) (path : Text) : Prop where
  generate : (Command.generate path).perform d = (refusal path, d)
  run : ∀ o, (Command.run path o).perform d = (refusal path, d)

variable {d d' : Directory} {path input output : Text} {w : Workspace}

theorem perform_generate (d : Directory) (path : Text) : (Command.generate path).perform d =
    match loadWorkspace path (d.read? path) with
    | .ok w => (⟨0, outputLines [Program.synthesize w.blocks], warnings w⟩, d)
    | .error _ => (refusal path, d) := by
  cases h : loadWorkspace path (d.read? path) with
  | ok w => simp only [Command.perform, Command.act, Command.source?, Option.bind_some,
      withWorkspace, h]
  | error e => simp only [Command.perform, Command.act, Command.source?, Option.bind_some,
      withWorkspace, h, refusal]

theorem perform_run (d : Directory) (path : Text) (o : Options) : (Command.run path o).perform d =
    match loadWorkspace path (d.read? path) with
    | .ok w => (⟨0, outputLines (runLines w o), warnings w⟩, d)
    | .error _ => (refusal path, d) := by
  cases h : loadWorkspace path (d.read? path) with
  | ok w => simp only [Command.perform, Command.act, Command.source?, Option.bind_some,
      withWorkspace, h]
  | error e => simp only [Command.perform, Command.act, Command.source?, Option.bind_some,
      withWorkspace, h, refusal]

theorem shows_of_load (h : loadWorkspace path (d.read? path) = .ok w) : Shows d path w where
  generate := by rw [perform_generate, h]
  run o := by rw [perform_run, h]

theorem refuses_of_load {e : LoadError} (h : loadWorkspace path (d.read? path) = .error e) :
    Refuses d path where
  generate := by rw [perform_generate, h]
  run o := by rw [perform_run, h]

theorem Shows.of_reread (h : Shows d path w.reread) (kept : w.RowsKept) : Shows d path w where
  generate := by
    rw [h.generate, Program.synthesize_reread kept, warnings_reread]
  run o := by
    rw [h.run, runLines_reread kept, warnings_reread]

/-! ### Files that are written -/

/-- A conversion writes the workspace that it loads. -/
theorem perform_convert_eq (h : loadWorkspace input (d.read? input) = .ok w) :
    (Command.convert input output).perform d =
      match d.write? output (saveWorkspace output w) with
      | some d' => (⟨0, [], warnings w ++ [tool ++ "Wrote ".toList ++ Text.ofNat w.blocks.length ++
          " block(s) to ".toList ++ output]⟩, d')
      | none => (failure (warnings w) ("Failed to write ".toList ++ output), d) := by
  cases written : d.write? output (saveWorkspace output w) with
  | some d' =>
    simp only [Command.perform, Command.act, Command.source?, Option.bind_some, withWorkspace, h,
      written]
  | none =>
    simp only [Command.perform, Command.act, Command.source?, Option.bind_some, withWorkspace, h,
      written]

/-- A finished conversion has written the workspace. -/
theorem read?_of_perform_convert {r : Response} (h : loadWorkspace input (d.read? input) = .ok w)
    (converted : (Command.convert input output).perform d = (r, d')) (done : r.code = 0) :
    d'.read? output = some (saveWorkspace output w) := by
  rw [perform_convert_eq h] at converted
  split at converted
  · next written =>
    cases converted
    exact Directory.read?_write? written
  · cases converted
    cases done

theorem loadWorkspace_saveWorkspace_binary (binary : Path.isBinary path = true)
    (fits : Binary.WorkspaceFits w) :
    loadWorkspace path (some (saveWorkspace path w)) = .ok w := by
  simp only [loadWorkspace, saveWorkspace, binary, if_true, Workspace.ofBinary_toBinary fits]

theorem loadWorkspace_saveWorkspace_json (json : Path.isBinary path = false)
    (placed : ∀ b ∈ w.blocks, b.Placed) :
    loadWorkspace path (some (saveWorkspace path w)) = .ok w.reread := by
  simp only [loadWorkspace, saveWorkspace, json, Bool.false_eq_true, if_false,
    Utf8.decode?_encode, Workspace.ofDocument_toDocument_reread placed]

/-- A workspace with a place that is not finite is written, but not read again. -/
theorem loadWorkspace_saveWorkspace_unplaced (json : Path.isBinary path = false)
    (unplaced : ¬ ∀ b ∈ w.blocks, b.Placed) :
    ∃ e, loadWorkspace path (some (saveWorkspace path w)) = .error e := by
  cases h : Workspace.ofDocument w.toDocument with
  | ok w' => exact absurd (Workspace.placed_of_ofDocument_toDocument h) unplaced
  | error p =>
    refine ⟨.json p, ?_⟩
    simp only [loadWorkspace, saveWorkspace, json, Bool.false_eq_true, if_false,
      Utf8.decode?_encode, h]

theorem placed_of_loadWorkspace {contents : Option Bytes} (json : Path.isBinary path = false)
    (h : loadWorkspace path contents = .ok w) : ∀ b ∈ w.blocks, b.Placed := by
  unfold loadWorkspace at h
  split at h
  · cases h
  · rw [if_neg (by simp [json])] at h
    split at h
    · cases h
    · split at h
      · next read =>
        cases h
        exact Workspace.placed_of_ofDocument read
      · cases h

theorem shows_of_convert_json {r : Response} (h : loadWorkspace input (d.read? input) = .ok w)
    (converted : (Command.convert input output).perform d = (r, d')) (done : r.code = 0)
    (json : Path.isBinary output = false) (placed : ∀ b ∈ w.blocks, b.Placed) :
    Shows d' output w.reread := by
  apply shows_of_load
  rw [read?_of_perform_convert h converted done, loadWorkspace_saveWorkspace_json json placed]

/-! ### Conversions -/

/-- After a conversion that was finished, the commands show the same for the new file as for the
old one if it is a binary document.  If it is a JSON document and all places are finite, they show
the workspace with the places that are read back, which makes no difference as long as these leave
the blocks in their order; otherwise the file is refused.  A JSON document has finite places to
begin with. -/
theorem perform_convert (d d' : Directory) (input output : Text) (w : Workspace) (r : Response)
    (loaded : loadWorkspace input (d.read? input) = .ok w)
    (converted : (Command.convert input output).perform d = (r, d')) (done : r.code = 0) :
    Shows d input w ∧
      (Path.isBinary output = true → Binary.WorkspaceFits w → Shows d' output w) ∧
      (Path.isBinary output = false → (∀ b ∈ w.blocks, b.Placed) →
        Shows d' output w.reread ∧ (w.RowsKept → Shows d' output w)) ∧
      (Path.isBinary output = false → (¬ ∀ b ∈ w.blocks, b.Placed) → Refuses d' output) ∧
      (Path.isBinary input = false → ∀ b ∈ w.blocks, b.Placed) := by
  have written := read?_of_perform_convert loaded converted done
  refine ⟨shows_of_load loaded, ?_, ?_, ?_, ?_⟩
  · intro binary fits
    apply shows_of_load
    rw [written, loadWorkspace_saveWorkspace_binary binary fits]
  · intro json placed
    have shown := shows_of_convert_json loaded converted done json placed
    exact ⟨shown, shown.of_reread⟩
  · intro json unplaced
    obtain ⟨e, refused⟩ := loadWorkspace_saveWorkspace_unplaced json unplaced
    apply refuses_of_load
    rw [written, refused]
  · intro json
    exact placed_of_loadWorkspace json loaded

/-- A binary document with a NaN, and a JSON document. -/
def unusualFiles : Directory :=
  ⟨[("w.bsw".toList, saveWorkspace "w.bsw".toList Binary.unusual),
    ("u.json".toList, saveWorkspace "u.json".toList Json.unusual)]⟩

theorem perform_convert_unusual :
    (loadWorkspace "w.bsw".toList (unusualFiles.read? "w.bsw".toList) = .ok Binary.unusual ∧
        ((Command.convert "w.bsw".toList "c.bsw".toList).perform unusualFiles).1.code = 0 ∧
        Shows ((Command.convert "w.bsw".toList "c.bsw".toList).perform unusualFiles).2
          "c.bsw".toList Binary.unusual ∧
        ((Command.convert "w.bsw".toList "c.json".toList).perform unusualFiles).1.code = 0 ∧
        Refuses ((Command.convert "w.bsw".toList "c.json".toList).perform unusualFiles).2
          "c.json".toList) ∧
      loadWorkspace "u.json".toList (unusualFiles.read? "u.json".toList) =
          .ok Json.unusual.reread ∧
        ((Command.convert "u.json".toList "c.json".toList).perform unusualFiles).1.code = 0 ∧
        Shows ((Command.convert "u.json".toList "c.json".toList).perform unusualFiles).2
          "c.json".toList Json.unusual.reread := by
  have binary : loadWorkspace "w.bsw".toList (unusualFiles.read? "w.bsw".toList) =
      .ok Binary.unusual :=
    loadWorkspace_saveWorkspace_binary (by decide) Binary.unusual_fits
  have json : loadWorkspace "u.json".toList (unusualFiles.read? "u.json".toList) =
      .ok Json.unusual.reread :=
    loadWorkspace_saveWorkspace_json (by decide) Json.unusual_placed
  have copied :
      ((Command.convert "w.bsw".toList "c.bsw".toList).perform unusualFiles).1.code = 0 := by
    rw [perform_convert_eq binary]
    rfl
  have lost :
      ((Command.convert "w.bsw".toList "c.json".toList).perform unusualFiles).1.code = 0 := by
    rw [perform_convert_eq binary]
    rfl
  have kept :
      ((Command.convert "u.json".toList "c.json".toList).perform unusualFiles).1.code = 0 := by
    rw [perform_convert_eq json]
    rfl
  have afterCopied := perform_convert unusualFiles _ "w.bsw".toList "c.bsw".toList _ _ binary
    Prod.mk.eta.symm copied
  have afterLost := perform_convert unusualFiles _ "w.bsw".toList "c.json".toList _ _ binary
    Prod.mk.eta.symm lost
  have afterKept := perform_convert unusualFiles _ "u.json".toList "c.json".toList _ _ json
    Prod.mk.eta.symm kept
  have placed := afterKept.2.2.2.2 (by decide)
  exact ⟨⟨binary, copied, afterCopied.2.1 (by decide) Binary.unusual_fits, lost,
      afterLost.2.2.2.1 (by decide) (by decide)⟩,
    json, kept, (afterKept.2.2.1 (by decide) placed).2 (by decide +kernel)⟩

/-- A block that is shown as its label, at a height. -/
def labelAt (label : Text) (y : Binary64) : Block :=
  ⟨label, [], .io, label, [], [], .zero false, y, none, [], []⟩

/-- Two blocks at neighbouring heights, the upper one last.  The heights are written as
`1.4000000000000001` and `1.4`, and both are read as `1.4`. -/
def tightRows : Workspace :=
  ⟨[labelAt ['B'] ⟨false, 0x3FF6666666666667, by decide⟩,
    labelAt ['A'] ⟨false, 0x3FF6666666666666, by decide⟩], none⟩

theorem tightRows_fits : Binary.WorkspaceFits tightRows where
  blocks := by
    refine ⟨by decide, ?_⟩
    intro b hb
    simp only [tightRows, List.mem_cons, List.not_mem_nil, or_false] at hb
    have absent : Binary.OptionFits Binary.TextFits none := fun _ h => by cases h
    have empty {α : Type} {fits : α → Prop} : Binary.ListFits fits [] :=
      ⟨Nat.two_pow_pos 64, fun _ h => by cases h⟩
    rcases hb with rfl | rfl
    · exact ⟨by decide, by decide, by decide, by decide, by decide, absent, empty, empty⟩
    · exact ⟨by decide, by decide, by decide, by decide, by decide, absent, empty, empty⟩
  selected := fun _ h => by cases h

theorem inRows_pair (a b : Block) :
    Program.inRows [a, b] = if a.y.rank ≤ b.y.rank then [a, b] else [b, a] := by
  simp [Program.inRows, List.mergeSort, List.MergeSort.Internal.splitInTwo, List.merge]

def tightFiles : Directory := ⟨[("w.bsw".toList, saveWorkspace "w.bsw".toList tightRows)]⟩

/-- A conversion may change the order of blocks whose heights are read as one. -/
theorem not_perform_convert :
    ¬ ∀ (d d' : Directory) (input output : Text) (w : Workspace) (r : Response),
      loadWorkspace input (d.read? input) = .ok w →
      (Command.convert input output).perform d = (r, d') → r.code = 0 →
        ((Command.generate output).perform d').1.code = 0 ∧
          ((Command.generate output).perform d').1.output =
            ((Command.generate input).perform d).1.output ∧
          ∀ o, ((Command.run output o).perform d').1.output =
            ((Command.run input o).perform d).1.output := by
  intro h
  have loaded : loadWorkspace "w.bsw".toList (tightFiles.read? "w.bsw".toList) = .ok tightRows :=
    loadWorkspace_saveWorkspace_binary (by decide) tightRows_fits
  have done : ((Command.convert "w.bsw".toList "c.json".toList).perform tightFiles).1.code = 0 := by
    rw [perform_convert_eq loaded]
    rfl
  have before := shows_of_load loaded
  have after : Shows ((Command.convert "w.bsw".toList "c.json".toList).perform tightFiles).2
      "c.json".toList tightRows.reread :=
    shows_of_convert_json loaded Prod.mk.eta.symm done (by decide) (by decide)
  have same := (h _ _ "w.bsw".toList "c.json".toList tightRows _ loaded Prod.mk.eta.symm done).2.1
  rw [before.generate, after.generate] at same
  have upright : Program.synthesize tightRows.blocks = "# A\n\n# B".toList := by
    simp only [Program.synthesize, tightRows, inRows_pair]
    decide +kernel
  have swapped : Program.synthesize tightRows.reread.blocks = "# B\n\n# A".toList := by
    simp only [Program.synthesize, tightRows, Workspace.reread, List.map, inRows_pair]
    decide +kernel
  rw [upright, swapped] at same
  exact absurd same (by decide)

end CommandLine
end BlockCanvas
