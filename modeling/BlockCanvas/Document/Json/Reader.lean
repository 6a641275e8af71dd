import BlockCanvas.Document.Json.Number
import BlockCanvas.Document.Json.Tree
import BlockCanvas.Text.Quoted

/-!
# Reading JSON trees

Readers of typed values from JSON trees.  A reader walks the tree in the order of the text and
stops at the first problem: a flaw of the text, or a value of the wrong shape.  Records may be
written as objects, whose members come in any order, or as arrays of their fields in order.
-/

namespace BlockCanvas
namespace Json

/-! ### Problems -/

/-- What stands in a document where something else is expected. -/
inductive Found where
  | integer (i : Int)
  | float (x : Binary64)
  | bool (b : Bool)
  | string (s : Text)
  | null
  | sequence
  | map
  | unitVariant

/-- A value that does not have the expected shape. -/
inductive Mismatch where
  | type (found : Found) (expected : Text)
  | value (found : Found) (expected : Text)
  | length (n : Nat) (expected : Text)
  | missingField (name : Text)
  | duplicateField (name : Text)
  | unknownVariant (name : Text) (known : List Text)

inductive Problem where
  | flaw (f : Flaw)
  | mismatch (m : Mismatch)

/-- Documents write finite numbers from `1e-5` up to below `1e16` without an exponent, and whole
numbers with a point and a zero; of two equally near decimals the even one is written. -/
def layout : Layout := ⟨-5, 15, true, .toEven⟩

/-- A text between backquotes. -/
def backquoted (s : Text) : Text := "`".toList ++ s ++ "`".toList

def intText (i : Int) : Text := Numeral.signText (i < 0) ++ Text.ofNat i.natAbs

def Found.describe : Found → Text
  | .integer i => "integer ".toList ++ backquoted (intText i)
  | .float x => "floating point ".toList ++ backquoted (layout.numeral x).text
  | .bool b => "boolean ".toList ++ backquoted (if b then "true".toList else "false".toList)
  | .string s => "string ".toList ++ Text.quoted s
  | .null => "null".toList
  | .sequence => "sequence".toList
  | .map => "map".toList
  | .unitVariant => "unit variant".toList

/-- The alternatives among which a variant is expected. -/
def alternatives (names : List Text) : Text :=
  match names with
  | [] => []
  | [a] => backquoted a
  | [a, b] => backquoted a ++ " or ".toList ++ backquoted b
  | names => "one of ".toList ++ ", ".toList.intercalate (names.map backquoted)

def Mismatch.message : Mismatch → Text
  | .type found expected =>
    "invalid type: ".toList ++ found.describe ++ ", expected ".toList ++ expected
  | .value found expected =>
    "invalid value: ".toList ++ found.describe ++ ", expected ".toList ++ expected
  | .length n expected =>
    "invalid length ".toList ++ Text.ofNat n ++ ", expected ".toList ++ expected
  | .missingField name => "missing field ".toList ++ backquoted name
  | .duplicateField name => "duplicate field ".toList ++ backquoted name
  | .unknownVariant name known =>
    "unknown variant ".toList ++ backquoted name ++ ", expected ".toList ++ alternatives known

/-! ### Readers -/

/-- Reads a value from a tree in which arrays, objects and variants may nest `room` deep. -/
abbrev Reader (α : Type) := (room : Nat) → Json → Except Problem α

/-- How deep a document may nest. -/
def maxDepth : Nat := 127

def liftFlaw {α : Type} : Except Flaw α → Except Problem α
  | .ok a => .ok a
  | .error f => .error (.flaw f)

/-- One level deeper. -/
def enter {α : Type} (room : Nat) (inner : Nat → Except Problem α) : Except Problem α :=
  match room with
  | 0 => .error (.flaw .malformed)
  | room + 1 => inner room

/-- The problem of a value that stands where something else is expected. -/
def unexpected (expected : Text) : Json → Problem
  | .null => .mismatch (.type .null expected)
  | .bool b => .mismatch (.type (.bool b) expected)
  | .number n =>
    match Amount.ofNumeral? n with
    | some (.whole i) => .mismatch (.type (.integer i) expected)
    | some (.float x) => .mismatch (.type (.float x) expected)
    | none => .flaw .malformed
  | .string s =>
    match s.text with
    | .ok s => .mismatch (.type (.string s) expected)
    | .error f => .flaw f
  | .array _ => .mismatch (.type .sequence expected)
  | .object _ => .mismatch (.type .map expected)
  | .cutNumber => .flaw .cutShort
  | .garbled f => .flaw f
  | .missing => .flaw .cutShort

def text : Reader Text := fun _ j =>
  match j with
  | .string s => liftFlaw s.text
  | j => .error (unexpected "a string".toList j)

/-- A number; whole numbers count too. -/
def float : Reader Binary64 := fun _ j =>
  match j with
  | .number n =>
    match Amount.ofNumeral? n with
    | some a => .ok a.toFloat
    | none => .error (.flaw .malformed)
  | j => .error (unexpected "f64".toList j)

/-- A whole number of 64 bits without sign, under the name that `expected` gives it. -/
def natural (expected : Text) : Reader Nat := fun _ j =>
  match j with
  | .number n =>
    match Amount.ofNumeral? n with
    | some (.whole i) =>
      if i < 0 then .error (.mismatch (.value (.integer i) expected)) else .ok i.natAbs
    | some (.float x) => .error (.mismatch (.type (.float x) expected))
    | none => .error (.flaw .malformed)
  | j => .error (unexpected expected j)

/-- A value, or null. -/
def nullable {α : Type} (read : Reader α) : Reader (Option α) := fun room j =>
  match j with
  | .null => .ok none
  | j => (read room j).map some

def listItems {α : Type} (read : Reader α) (room : Nat) : Items → Except Problem (List α)
  | .close => .ok []
  | .broken f => .error (.flaw f)
  | .cons head tail => do
    let a ← read room head
    let rest ← listItems read room tail
    return a :: rest

def list {α : Type} (read : Reader α) : Reader (List α) := fun room j =>
  match j with
  | .array is => enter room fun room => listItems read room is
  | j => .error (unexpected "a sequence".toList j)

/-! ### Variants -/

/-- The outcome for what follows the value of a variant: only the end of the object may. -/
def variantEnd : Members → Except Problem Unit
  | .close => .ok ()
  | .broken f => .error (.flaw f)
  | _ => .error (.flaw .malformed)

/-- A name among known ones. -/
def knownName (known : List Text) (s : Literal) : Except Problem Text := do
  let name ← liftFlaw s.text
  if known.contains name then return name
  else .error (.mismatch (.unknownVariant name known))

/-- Reads a variant: a string, or an object with one member, whose value `payload` reads. -/
def variant {α : Type} (known : List Text) (bare : Text → Except Problem α)
    (payload : Text → Reader α) : Reader α := fun room j =>
  match j with
  | .string s => do bare (← knownName known s)
  | .object ms => enter room fun room =>
    match ms with
    | .cons key v tail => do
      let name ← knownName known key
      let a ← payload name room v
      variantEnd tail
      return a
    | .broken f => .error (.flaw f)
    | _ => .error (.flaw .malformed)
  | .missing => .error (.flaw .cutShort)
  | _ => .error (.flaw .malformed)

/-- What stands for no value at all. -/
def unit : Reader Unit := fun _ j =>
  match j with
  | .null => .ok ()
  | j => .error (unexpected "unit".toList j)

/-- One of some values that are written as their names. -/
def choice {α : Type} (values : List α) (name : α → Text) : Reader α :=
  let pick (n : Text) : Except Problem α :=
    match values.find? fun a => name a == n with
    | some a => .ok a
    | none => .error (.mismatch (.unknownVariant n (values.map name)))
  variant (values.map name) pick fun n room j => do
    unit room j
    pick n

/-! ### Records -/

/-- When a field of a record may be left out. -/
inductive Absence where
  /-- Never. -/
  | required
  /-- In objects, but not at the end of arrays. -/
  | nullable
  /-- In objects and at the end of arrays. -/
  | defaulted
deriving DecidableEq

/-- A field of a record that is collected in a `δ`. -/
structure Field (δ : Type) where
  name : Text
  absence : Absence
  isSet : δ → Bool
  read : δ → Reader δ

/-- The field with the given name that `read` reads, and `get` and `set` find in the
collection. -/
def field {δ α : Type} (name : String) (absence : Absence) (read : Reader α)
    (get : δ → Option α) (set : δ → α → δ) : Field δ :=
  ⟨name.toList, absence, fun d => (get d).isSome, fun d room j => (read room j).map (set d)⟩

/-- A record type: its name, its fields in order, the empty collection, and the value of a
collection in which no required field is missing. -/
structure Record (δ α : Type) where
  name : Text
  fields : List (Field δ)
  start : δ
  build : δ → Option α

def countText (n : Nat) : Text :=
  Text.ofNat n ++ (if n = 1 then " element".toList else " elements".toList)

def Record.expected {δ α : Type} (r : Record δ α) : Text := "struct ".toList ++ r.name

/-- Collects the members of an object; members of unknown names are skipped. -/
def collectMembers {δ : Type} (fields : List (Field δ)) (room : Nat) :
    Members → δ → Except Problem δ
  | .close, d => .ok d
  | .broken f, _ | .dangling f, _ => .error (.flaw f)
  | .cons key v tail, d => do
    let name ← liftFlaw key.text
    match fields.find? fun f => f.name == name with
    | some f =>
      if f.isSet d then .error (.mismatch (.duplicateField name))
      else
        let d ← f.read d room v
        collectMembers fields room tail d
    | none =>
      liftFlaw (skip v)
      collectMembers fields room tail d

/-- The place of the first field, from place `i` on, that an array has to give. -/
def firstDue {δ : Type} (i : Nat) : List (Field δ) → Option Nat
  | [] => none
  | f :: fields => if f.absence = .defaulted then firstDue (i + 1) fields else some i

/-- Collects the items of an array, which are the fields in order; `i` is the place of the next
one. -/
def collectItems {δ : Type} (expected : Text) (room : Nat) :
    (fields : List (Field δ)) → (i : Nat) → Items → δ → Except Problem δ
  | [], _, .close, d => .ok d
  | [], _, .cons _ _, _ => .error (.flaw .malformed)
  | _, _, .broken f, _ => .error (.flaw f)
  | fields, i, .close, d =>
    match firstDue i fields with
    | some n => .error (.mismatch (.length n expected))
    | none => .ok d
  | f :: fields, i, .cons head tail, d => do
    let d ← f.read d room head
    collectItems expected room fields (i + 1) tail d

/-- The collection of an object, if no required field is missing. -/
def checkFields {δ : Type} (fields : List (Field δ)) (d : δ) : Except Problem δ :=
  match fields.find? fun f => f.absence = .required && !f.isSet d with
  | some f => .error (.mismatch (.missingField f.name))
  | none => .ok d

/-- The value of a collection. -/
def Record.finish {δ α : Type} (r : Record δ α) (d : δ) : Except Problem α :=
  match r.build d with
  | some a => .ok a
  | none => .error (.flaw .malformed)

/-- Reads a record from an object or from an array. -/
def Record.read {δ α : Type} (r : Record δ α) : Reader α := fun room j =>
  match j with
  | .object ms => enter room fun room => do
    let d ← collectMembers r.fields room ms r.start
    r.finish (← checkFields r.fields d)
  | .array is => enter room fun room => do
    let expected := r.expected ++ " with ".toList ++ countText r.fields.length
    r.finish (← collectItems expected room r.fields 0 is r.start)
  | j => .error (unexpected r.expected j)

/-! ### Documents -/

/-- Reads a document: one value, with nothing but white space after it. -/
def readDocument {α : Type} (read : Reader α) (s : Text) : Except Problem α := do
  let (j, whole) := parse s
  let a ← read maxDepth j
  if whole then return a else .error (.flaw .malformed)

end Json
end BlockCanvas
