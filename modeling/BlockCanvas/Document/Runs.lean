import BlockCanvas.Canvas.Session
import BlockCanvas.Document.Blocks

/-!
# Runs in documents

How values, configurations, the reports of runs and the kinds of console lines stand in JSON
documents.
-/

namespace BlockCanvas

open Json (field ofText ofOption ofList ofFields)

/-! ### Values -/

namespace Value

mutual

/-- A value is an object with one member, named for its kind. -/
def toJson : Value → Json
  | .text s => ofFields [("Str".toList, ofText s)]
  | .number x => ofFields [("Num".toList, .ofBinary64 x)]
  | .list items => ofFields [("List".toList, .array (toItems items))]

def toItems : List Value → Json.Items
  | [] => .close
  | v :: rest => .cons (toJson v) (toItems rest)

end

/-- The names of the kinds of values in documents. -/
def variants : List Text := ["Str".toList, "Num".toList, "List".toList]

mutual

def read (room : Nat) : Json → Except Json.Problem Value
  | .string s => do
    let _ ← Json.knownName variants s
    .error (.mismatch (.type .unitVariant "newtype variant".toList))
  | .object ms =>
    match room with
    | 0 => .error (.flaw .malformed)
    | room + 1 => readVariant room ms
  | .missing => .error (.flaw .cutShort)
  | _ => .error (.flaw .malformed)

/-- Reads the member that names the kind and holds the value. -/
def readVariant (room : Nat) : Json.Members → Except Json.Problem Value
  | .cons key v tail => do
    let name ← Json.knownName variants key
    let a ←
      if name = "Str".toList then (Json.text room v).map Value.text
      else if name = "Num".toList then (Json.float room v).map Value.number
      else (readList room v).map Value.list
    Json.variantEnd tail
    return a
  | .broken f => .error (.flaw f)
  | _ => .error (.flaw .malformed)

def readList (room : Nat) : Json → Except Json.Problem (List Value)
  | .array is =>
    match room with
    | 0 => .error (.flaw .malformed)
    | room + 1 => readItems room is
  | j => .error (Json.unexpected "a sequence".toList j)

def readItems (room : Nat) : Json.Items → Except Json.Problem (List Value)
  | .close => .ok []
  | .broken f => .error (.flaw f)
  | .cons head tail => do
    let v ← read room head
    let rest ← readItems room tail
    return v :: rest

end

end Value

/-! ### Configurations -/

namespace Config

structure Draft where
  maxLoopIterations : Option Nat := none
  maxListItems : Option Nat := none
  simulatedInput : Option Text := none

def record : Json.Record Draft Config where
  name := "SimulatorConfig".toList
  fields := [
    field "max_loop_iterations" .defaulted (Json.natural "u64".toList) (·.maxLoopIterations)
      fun d a => { d with maxLoopIterations := some a },
    field "max_list_items" .defaulted (Json.natural "usize".toList) (·.maxListItems)
      fun d a => { d with maxListItems := some a },
    field "simulated_input" .defaulted Json.text (·.simulatedInput)
      fun d a => { d with simulatedInput := some a }]
  start := {}
  build d :=
    let standard : Config := {}
    some ⟨d.maxLoopIterations.getD standard.maxLoopIterations,
      d.maxListItems.getD standard.maxListItems, d.simulatedInput.getD standard.simulatedInput⟩

def toJson (c : Config) : Json :=
  ofFields [("max_loop_iterations".toList, .number (.ofNat c.maxLoopIterations)),
    ("max_list_items".toList, .number (.ofNat c.maxListItems)),
    ("simulated_input".toList, ofText c.simulatedInput)]

end Config

/-! ### Reports -/

namespace Report

structure Draft where
  output : Option (List Text) := none
  error : Option (Option Text) := none

def record : Json.Record Draft Report where
  name := "ExecutionResult".toList
  fields := [
    field "output" .required (Json.list Json.text) (·.output)
      fun d a => { d with output := some a },
    field "error" .nullable (Json.nullable Json.text) (·.error)
      fun d a => { d with error := some a }]
  start := {}
  build d := do return ⟨← d.output, d.error.getD none⟩

def toJson (r : Report) : Json :=
  ofFields [("output".toList, ofList (r.output.map ofText)), ("error".toList, ofOption r.error)]

end Report

def LineKind.reader : Json.Reader LineKind := Json.choice LineKind.all LineKind.name

end BlockCanvas
