import BlockCanvas.Canvas.Workspace
import BlockCanvas.Text.Utf8
import BlockCanvas.Text.Digits

/-!
# Binary documents

A workspace as bytes: a mark, the version of the format, and the fields of the workspace in order.
Lengths and choices are numbers in one to nine bytes, texts are UTF-8 after their length, and an
optional field starts with a byte that says whether it is there.
-/

namespace BlockCanvas
namespace Binary

/-! ### Numbers -/

/-- The `count` lowest bytes of a number, the lowest first. -/
def littleEndian : (count : Nat) → Nat → Bytes
  | 0, _ => []
  | count + 1, n => UInt8.ofNat (n % 256) :: littleEndian count (n / 256)

/-- The number of bytes, the lowest first. -/
def ofLittleEndian : Bytes → Nat
  | [] => 0
  | b :: rest => b.toNat + 256 * ofLittleEndian rest

/-- A number below `2 ^ 64`: as a byte below 251, or as 251, 252 or 253 and two, four or eight
bytes. -/
def encodeNat (n : Nat) : Bytes :=
  if n < 251 then [UInt8.ofNat n]
  else if n < 0x10000 then 251 :: littleEndian 2 n
  else if n < 0x100000000 then 252 :: littleEndian 4 n
  else 253 :: littleEndian 8 n

/-! ### Encoding -/

def encodeText (s : Text) : Bytes :=
  let bytes := Utf8.encode s
  encodeNat bytes.length ++ bytes

def encodeList {α : Type} (encode : α → Bytes) (as : List α) : Bytes :=
  encodeNat as.length ++ as.flatMap encode

def encodeOption {α : Type} (encode : α → Bytes) : Option α → Bytes
  | none => [0]
  | some a => 1 :: encode a

def encodeFloat (x : Binary64) : Bytes := littleEndian 8 x.bits

/-- One of some values, by its place among them. -/
def encodeChoice {α : Type} [BEq α] (values : List α) (a : α) : Bytes :=
  encodeNat (values.idxOf a)

def encodeInput (i : Input) : Bytes :=
  encodeText i.id ++ encodeText i.label ++ encodeChoice PortKind.all i.kind ++
    encodeOption encodeText i.value

def encodeOutput (o : Output) : Bytes :=
  encodeText o.id ++ encodeText o.label ++ encodeChoice PortKind.all o.kind

def encodeBlock (b : Block) : Bytes :=
  encodeText b.id ++ encodeText b.type ++ encodeChoice Category.all b.category ++
    encodeText b.label ++ encodeText b.icon ++ encodeText b.color ++ encodeFloat b.x ++
    encodeFloat b.y ++ encodeOption encodeText b.template ++ encodeList encodeInput b.inputs ++
    encodeList encodeOutput b.outputs

def encodeWorkspace (w : Workspace) : Bytes :=
  encodeList encodeBlock w.blocks ++ encodeOption encodeText w.selected

/-! ### Decoding -/

/-- Why bytes are not a document. -/
inductive Problem where
  /-- The bytes end within the mark or the version. -/
  | noHeader
  | wrongMark
  | wrongVersion (n : Nat)
  /-- The bytes end within the workspace. -/
  | cutShort
  | notUtf8
  /-- A byte that stands for nothing in its place. -/
  | malformed
deriving DecidableEq

/-- Reads a value from the head of bytes, and gives the bytes after it. -/
abbrev Decoder (α : Type) := Bytes → Except Problem (α × Bytes)

/-- The first `count` bytes. -/
def take (count : Nat) : Decoder Bytes := fun bytes =>
  let head := bytes.take count
  if head.length < count then .error .cutShort else .ok (head, bytes.drop count)

def decodeByte : Decoder Nat
  | [] => .error .cutShort
  | b :: rest => .ok (b.toNat, rest)

def decodeFixed (count : Nat) : Decoder Nat := fun bytes => do
  let (head, rest) ← take count bytes
  return (ofLittleEndian head, rest)

/-- Reads a number of at most `width` bytes; forms longer than necessary are taken too. -/
def decodeNat (width : Nat) : Decoder Nat := fun bytes => do
  let (b, rest) ← decodeByte bytes
  if b < 251 then return (b, rest)
  else if b = 251 then decodeFixed 2 rest
  else if b = 252 then decodeFixed 4 rest
  else if b = 253 ∧ width = 8 then decodeFixed 8 rest
  else .error .malformed

def decodeText : Decoder Text := fun bytes => do
  let (size, rest) ← decodeNat 8 bytes
  let (head, rest) ← take size rest
  match Utf8.decode? head with
  | some s => return (s, rest)
  | none => .error .notUtf8

/-- Reads `count` values one after the other. -/
def decodeMany {α : Type} (decode : Decoder α) : (count : Nat) → Decoder (List α)
  | 0, bytes => .ok ([], bytes)
  | count + 1, bytes => do
    let (a, rest) ← decode bytes
    let (as, rest) ← decodeMany decode count rest
    return (a :: as, rest)

def decodeList {α : Type} (decode : Decoder α) : Decoder (List α) := fun bytes => do
  let (count, rest) ← decodeNat 8 bytes
  decodeMany decode count rest

def decodeOption {α : Type} (decode : Decoder α) : Decoder (Option α) := fun bytes => do
  let (tag, rest) ← decodeByte bytes
  if tag = 0 then return (none, rest)
  else if tag = 1 then
    let (a, rest) ← decode rest
    return (some a, rest)
  else .error .malformed

def decodeFloat : Decoder Binary64 := fun bytes => do
  let (bits, rest) ← decodeFixed 8 bytes
  return (.ofBits bits, rest)

def decodeChoice {α : Type} (values : List α) : Decoder α := fun bytes => do
  let (i, rest) ← decodeNat 4 bytes
  match values[i]? with
  | some a => return (a, rest)
  | none => .error .malformed

def decodeInput : Decoder Input := fun bytes => do
  let (id, bytes) ← decodeText bytes
  let (label, bytes) ← decodeText bytes
  let (kind, bytes) ← decodeChoice PortKind.all bytes
  let (value, bytes) ← decodeOption decodeText bytes
  return (⟨id, label, kind, value⟩, bytes)

def decodeOutput : Decoder Output := fun bytes => do
  let (id, bytes) ← decodeText bytes
  let (label, bytes) ← decodeText bytes
  let (kind, bytes) ← decodeChoice PortKind.all bytes
  return (⟨id, label, kind⟩, bytes)

def decodeBlock : Decoder Block := fun bytes => do
  let (id, bytes) ← decodeText bytes
  let (type, bytes) ← decodeText bytes
  let (category, bytes) ← decodeChoice Category.all bytes
  let (label, bytes) ← decodeText bytes
  let (icon, bytes) ← decodeText bytes
  let (color, bytes) ← decodeText bytes
  let (x, bytes) ← decodeFloat bytes
  let (y, bytes) ← decodeFloat bytes
  let (template, bytes) ← decodeOption decodeText bytes
  let (inputs, bytes) ← decodeList decodeInput bytes
  let (outputs, bytes) ← decodeList decodeOutput bytes
  return (⟨id, type, category, label, icon, color, x, y, template, inputs, outputs⟩, bytes)

def decodeWorkspace : Decoder Workspace := fun bytes => do
  let (blocks, bytes) ← decodeList decodeBlock bytes
  let (selected, bytes) ← decodeOption decodeText bytes
  return (⟨blocks, selected⟩, bytes)

/-! ### Documents -/

/-- The bytes that every document starts with. -/
def mark : Bytes := Utf8.encode "BLOCKSTUDIO".toList

/-- The version of the format. -/
def version : Nat := 1

/-- Reads bytes of the header. -/
def takeHeader (count : Nat) : Decoder Bytes := fun bytes =>
  match take count bytes with
  | .ok r => .ok r
  | .error _ => .error .noHeader

/-- Reads the mark and the version. -/
def decodeHeader : Decoder Unit := fun bytes => do
  let (head, bytes) ← takeHeader mark.length bytes
  if head ≠ mark then .error .wrongMark
  else
    let (head, bytes) ← takeHeader 4 bytes
    let n := ofLittleEndian head
    if n ≠ version then .error (.wrongVersion n) else .ok ((), bytes)

end Binary

/-- The binary document of a workspace. -/
def Workspace.toBinary (w : Workspace) : Bytes :=
  Binary.mark ++ Binary.littleEndian 4 Binary.version ++ Binary.encodeWorkspace w

/-- The workspace of a binary document; bytes after it are not looked at. -/
def Workspace.ofBinary (bytes : Bytes) : Except Binary.Problem Workspace := do
  let (_, bytes) ← Binary.decodeHeader bytes
  let (w, _) ← Binary.decodeWorkspace bytes
  return w

/-- What is wrong with the header of a binary document. -/
def Binary.Problem.message? : Binary.Problem → Option Text
  | .wrongMark => some "Invalid magic bytes: expected 'BLOCKSTUDIO'".toList
  | .wrongVersion n => some ("Unsupported version: ".toList ++ Text.ofNat n)
  | _ => none

end BlockCanvas
