import Mathlib.Algebra.Group.Nat.Defs
import BlockCanvas.Document.Binary
import BlockCanvas.Proofs.Except
import BlockCanvas.Proofs.Text.Utf8

/-!
# Reading binary documents back

Every part of a binary document is read by its decoder exactly as far as its encoder wrote it:
`Reads decode encode P` says so for the values in `P`, with any bytes behind.  A text is limited in
its bytes and a list in its length, since both are written as numbers below `2 ^ 64`.

Main statement: `ofBinary_toBinary_append`, a document reads back as its workspace, whatever
follows it.
-/

namespace BlockCanvas
namespace Binary

/-! ### Numbers -/

theorem length_littleEndian (count n : Nat) : (littleEndian count n).length = count := by
  induction count generalizing n with
  | zero => rfl
  | succ count ih => rw [littleEndian, List.length_cons, ih]

theorem ofLittleEndian_littleEndian {count n : Nat} (h : n < 256 ^ count) :
    ofLittleEndian (littleEndian count n) = n := by
  induction count generalizing n with
  | zero =>
    rw [Nat.pow_zero] at h
    rw [littleEndian, ofLittleEndian]
    omega
  | succ count ih =>
    have low : n % 256 < 256 := Nat.mod_lt _ (by decide)
    have high : n / 256 < 256 ^ count := Nat.div_lt_of_lt_mul (by rwa [Nat.pow_succ'] at h)
    rw [littleEndian, ofLittleEndian, ih high, Utf8.toNat_ofNat low]
    omega

theorem take_append {count : Nat} {head : Bytes} (h : head.length = count) (rest : Bytes) :
    take count (head ++ rest) = .ok (head, rest) := by
  subst h
  simp [take]

theorem decodeFixed_append {count n : Nat} (h : n < 256 ^ count) (rest : Bytes) :
    decodeFixed count (littleEndian count n ++ rest) = .ok (n, rest) := by
  rw [decodeFixed, take_append (length_littleEndian count n), ok_bind]
  simp only [ofLittleEndian_littleEndian h]
  rfl

/-- A number is read from its bytes; one that takes nine of them only where there is room for
that. -/
theorem decodeNat_encodeNat {width n : Nat} (h : n < 2 ^ 64) (hw : n < 2 ^ 32 ∨ width = 8)
    (rest : Bytes) : decodeNat width (encodeNat n ++ rest) = .ok (n, rest) := by
  unfold encodeNat
  split
  case isTrue small =>
    have lead : (UInt8.ofNat n).toNat = n := Utf8.toNat_ofNat (by omega)
    rw [List.singleton_append, decodeNat, decodeByte, ok_bind]
    simp only [lead, if_pos small]
    rfl
  split
  case isTrue h16 => exact decodeFixed_append (show n < 256 ^ 2 by omega) rest
  split
  case isTrue h32 => exact decodeFixed_append (show n < 256 ^ 4 by omega) rest
  case isFalse =>
    obtain rfl : width = 8 := hw.resolve_left (by omega)
    exact decodeFixed_append (show n < 256 ^ 8 by omega) rest

/-! ### Parts -/

/-- The decoder reads back what the encoder writes for the values in `P`, with any bytes behind. -/
def Reads {α : Type} (decode : Decoder α) (encode : α → Bytes) (P : α → Prop) : Prop :=
  ∀ a, P a → ∀ rest, decode (encode a ++ rest) = .ok (a, rest)

/-- A text whose bytes can be counted in 64 bits. -/
def TextFits (s : Text) : Prop := Utf8.size s < 2 ^ 64

instance (s : Text) : Decidable (TextFits s) := inferInstanceAs (Decidable (Utf8.size s < 2 ^ 64))

/-- A list that can be counted in 64 bits, of items that fit. -/
def ListFits {α : Type} (fits : α → Prop) (as : List α) : Prop :=
  as.length < 2 ^ 64 ∧ ∀ a ∈ as, fits a

/-- An optional value that fits if it is there. -/
def OptionFits {α : Type} (fits : α → Prop) (o : Option α) : Prop := ∀ a ∈ o, fits a

theorem reads_text : Reads decodeText encodeText TextFits := by
  intro s hs rest
  show decodeText (encodeNat (Utf8.size s) ++ Utf8.encode s ++ rest) = _
  rw [List.append_assoc, decodeText, decodeNat_encodeNat hs (.inr rfl), ok_bind]
  simp only
  rw [take_append (show (Utf8.encode s).length = Utf8.size s from rfl), ok_bind]
  simp only [Utf8.decode?_encode]
  rfl

theorem reads_float : Reads decodeFloat encodeFloat fun _ => True := by
  intro x _ rest
  rw [encodeFloat, decodeFloat, decodeFixed_append x.bits_lt, ok_bind]
  simp only [Binary64.ofBits_bits]
  rfl

/-- One of fewer than `2 ^ 32` values is read by its place. -/
theorem reads_choice {α : Type} [BEq α] [LawfulBEq α] {values : List α}
    (h : values.length < 2 ^ 32) :
    Reads (decodeChoice values) (encodeChoice values) (· ∈ values) := by
  intro a ha rest
  have place : values.idxOf a < values.length := List.idxOf_lt_length_iff.2 ha
  rw [encodeChoice, decodeChoice, decodeNat_encodeNat (by omega) (.inl (by omega)), ok_bind]
  simp only [List.getElem?_eq_getElem place, List.getElem_idxOf]
  rfl

section

variable {α : Type} {decode : Decoder α} {encode : α → Bytes} {fits : α → Prop}

theorem Reads.option (h : Reads decode encode fits) :
    Reads (decodeOption decode) (encodeOption encode) (OptionFits fits) := by
  intro o ho rest
  cases o with
  | none => rfl
  | some a =>
    rw [encodeOption, List.cons_append, decodeOption, decodeByte, ok_bind]
    show (decode (encode a ++ rest) >>= _) = _
    rw [h a (ho a rfl), ok_bind]
    rfl

theorem Reads.many (h : Reads decode encode fits) {as : List α} (has : ∀ a ∈ as, fits a)
    (rest : Bytes) : decodeMany decode as.length (as.flatMap encode ++ rest) = .ok (as, rest) := by
  induction as with
  | nil => rfl
  | cons a as ih =>
    rw [List.flatMap_cons, List.append_assoc, List.length_cons, decodeMany,
      h a (has a List.mem_cons_self), ok_bind]
    simp only
    rw [ih fun b hb => has b (List.mem_cons_of_mem a hb)]
    rfl

theorem Reads.list (h : Reads decode encode fits) :
    Reads (decodeList decode) (encodeList encode) (ListFits fits) := by
  intro as has rest
  rw [encodeList, List.append_assoc, decodeList,
    decodeNat_encodeNat has.1 (.inr rfl), ok_bind]
  exact h.many has.2 rest

end

/-! ### Ports, blocks and workspaces -/

theorem mem_portKind_all (k : PortKind) : k ∈ PortKind.all := by cases k <;> decide

theorem mem_category_all (c : Category) : c ∈ Category.all := by cases c <;> decide

theorem reads_portKind :
    Reads (decodeChoice PortKind.all) (encodeChoice PortKind.all) fun _ => True :=
  fun k _ => reads_choice (by decide) k (mem_portKind_all k)

theorem reads_category :
    Reads (decodeChoice Category.all) (encodeChoice Category.all) fun _ => True :=
  fun c _ => reads_choice (by decide) c (mem_category_all c)

structure InputFits (i : Input) : Prop where
  id : TextFits i.id
  label : TextFits i.label
  value : OptionFits TextFits i.value

structure OutputFits (o : Output) : Prop where
  id : TextFits o.id
  label : TextFits o.label

structure BlockFits (b : Block) : Prop where
  id : TextFits b.id
  type : TextFits b.type
  label : TextFits b.label
  icon : TextFits b.icon
  color : TextFits b.color
  template : OptionFits TextFits b.template
  inputs : ListFits InputFits b.inputs
  outputs : ListFits OutputFits b.outputs

/-- A workspace all of whose texts and lists can be counted in 64 bits. -/
structure WorkspaceFits (w : Workspace) : Prop where
  blocks : ListFits BlockFits w.blocks
  selected : OptionFits TextFits w.selected

theorem reads_input : Reads decodeInput encodeInput InputFits := by
  intro i h rest
  simp only [encodeInput, List.append_assoc, decodeInput, reads_text _ h.id, reads_text _ h.label,
    reads_portKind _ trivial, reads_text.option _ h.value, ok_bind]
  rfl

theorem reads_output : Reads decodeOutput encodeOutput OutputFits := by
  intro o h rest
  simp only [encodeOutput, List.append_assoc, decodeOutput, reads_text _ h.id,
    reads_text _ h.label, reads_portKind _ trivial, ok_bind]
  rfl

theorem reads_block : Reads decodeBlock encodeBlock BlockFits := by
  intro b h rest
  simp only [encodeBlock, List.append_assoc, decodeBlock, reads_text _ h.id, reads_text _ h.type,
    reads_category _ trivial, reads_text _ h.label, reads_text _ h.icon,
    reads_text _ h.color, reads_float _ trivial, reads_text.option _ h.template,
    reads_input.list _ h.inputs, reads_output.list _ h.outputs, ok_bind]
  rfl

theorem reads_workspace : Reads decodeWorkspace encodeWorkspace WorkspaceFits := by
  intro w h rest
  simp only [encodeWorkspace, List.append_assoc, decodeWorkspace, reads_block.list _ h.blocks,
    reads_text.option _ h.selected, ok_bind]
  rfl

/-! ### Documents -/

theorem decodeHeader_append (rest : Bytes) :
    decodeHeader (mark ++ (littleEndian 4 version ++ rest)) = .ok ((), rest) := by
  have number : ofLittleEndian (littleEndian 4 version) = version :=
    ofLittleEndian_littleEndian (by decide)
  rw [decodeHeader, takeHeader, take_append rfl]
  simp only [ok_bind, ne_eq, not_true_eq_false, if_false]
  rw [takeHeader, take_append (length_littleEndian 4 version)]
  simp only [ok_bind, number, not_true_eq_false, if_false]

end Binary

/-- Bytes that begin with the document of a workspace are read as this workspace. -/
theorem Workspace.ofBinary_of_beginning {w : Workspace} (h : Binary.WorkspaceFits w) {bytes : Bytes}
    (beginning : w.toBinary <+: bytes) : Workspace.ofBinary bytes = .ok w := by
  obtain ⟨rest, rfl⟩ := beginning
  rw [Workspace.toBinary, List.append_assoc, List.append_assoc, Workspace.ofBinary,
    Binary.decodeHeader_append, ok_bind]
  simp only
  rw [Binary.reads_workspace w h, ok_bind]
  rfl

theorem Workspace.ofBinary_toBinary {w : Workspace} (h : Binary.WorkspaceFits w) :
    Workspace.ofBinary w.toBinary = .ok w :=
  ofBinary_of_beginning h List.prefix_rfl

/-- A document reads back as its workspace, bit for bit, whatever bytes follow it. -/
theorem Workspace.ofBinary_toBinary_append (w : Workspace) (h : Binary.WorkspaceFits w)
    (rest : Bytes) : Workspace.ofBinary (w.toBinary ++ rest) = .ok w :=
  ofBinary_of_beginning h (List.prefix_append ..)

/-- A workspace with a NaN, a negative zero, an absent and an empty text, and a label of 300
bytes. -/
def Binary.unusual : Workspace :=
  ⟨[⟨['b'], [], .lists, List.replicate 150 'é', ['😀'], ['\x00'], .ofBits 0x7FF0000000000001,
    .zero true, none, [⟨['i'], [], .any, some []⟩], [⟨['o'], [], .number⟩]⟩], some ['b']⟩

theorem Binary.unusual_fits : Binary.WorkspaceFits Binary.unusual where
  blocks := by
    refine ⟨by decide, fun b hb => ?_⟩
    obtain rfl := List.mem_singleton.1 hb
    constructor
    case inputs =>
      refine ⟨by decide, fun i hi => ?_⟩
      obtain rfl := List.mem_singleton.1 hi
      exact ⟨by decide, by decide, fun v hv => by cases hv; decide⟩
    case outputs =>
      refine ⟨by decide, fun o ho => ?_⟩
      obtain rfl := List.mem_singleton.1 ho
      exact ⟨by decide, by decide⟩
    case template => exact fun v hv => by cases hv
    all_goals decide +kernel
  selected := fun v hv => by cases hv; decide

theorem Workspace.ofBinary_toBinary_append_unusual :
    Binary.WorkspaceFits Binary.unusual ∧
      Workspace.ofBinary (Binary.unusual.toBinary ++ [0xFF, 0x00]) = .ok Binary.unusual :=
  ⟨Binary.unusual_fits,
    Workspace.ofBinary_toBinary_append Binary.unusual Binary.unusual_fits [0xFF, 0x00]⟩

end BlockCanvas
