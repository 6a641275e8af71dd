import BlockCanvas.Proofs.Document.Framing

/-!
# Documents that are saved again

A binary document may be longer than necessary: a number can take more bytes than it needs.  It is
written back in the shortest form, so a document that is read and saved again is the same as before
or shorter (`NoLonger`).  `Saves written decode encode` says so of a decoder that goes on reading
when the bytes `written` of its result are known already; the decoders of records collect these
bytes field by field (`Saves.bind`).

Main statement: `ofBinary_resaved`.
-/

namespace BlockCanvas
namespace Binary

/-! ### Shorter or the same -/

/-- The first string of bytes is the second one, or shorter. -/
def NoLonger (new old : Bytes) : Prop := new = old ∨ new.length < old.length

variable {new middle old : Bytes}

theorem noLonger_self (bytes : Bytes) : NoLonger bytes bytes := .inl rfl

theorem NoLonger.length_le (h : NoLonger new old) : new.length ≤ old.length := by
  rcases h with rfl | shorter
  · exact Nat.le_refl _
  · exact Nat.le_of_lt shorter

theorem NoLonger.length_eq_iff (h : NoLonger new old) : new.length = old.length ↔ new = old := by
  constructor
  · intro same
    exact h.resolve_right (by omega)
  · rintro rfl
    rfl

theorem NoLonger.trans (h : NoLonger new middle) (h' : NoLonger middle old) : NoLonger new old := by
  rcases h with rfl | shorter
  · exact h'
  · exact .inr (Nat.lt_of_lt_of_le shorter h'.length_le)

theorem NoLonger.append_left (h : NoLonger new old) (before : Bytes) :
    NoLonger (before ++ new) (before ++ old) := by
  rcases h with rfl | shorter
  · exact noLonger_self _
  · refine .inr ?_
    rw [List.length_append, List.length_append]
    omega

theorem noLonger_append_right_iff {after : Bytes} :
    NoLonger (new ++ after) (old ++ after) ↔ NoLonger new old := by
  rw [NoLonger, NoLonger, List.append_cancel_right_eq, List.length_append, List.length_append,
    Nat.add_lt_add_iff_right]

/-! ### Decoders that are put together -/

variable {α β : Type} {written : Bytes} {encode : α → Bytes}

/-- What the decoder reads behind the bytes `written` takes no more bytes when it is written
back. -/
def Saves (written : Bytes) (decode : Decoder α) (encode : α → Bytes) : Prop :=
  ∀ bytes a rest, decode bytes = .ok (a, rest) →
    NoLonger (encode a ++ rest) (written ++ bytes)

theorem saves_pure {a : α} (h : written = encode a) :
    Saves written (fun bytes => .ok (a, bytes)) encode := by
  intro bytes b rest accepted
  cases accepted
  rw [h]
  exact noLonger_self _

theorem saves_error (e : Problem) : Saves written (fun _ => .error e) encode :=
  fun _ _ _ h => nomatch h

theorem Saves.ite {p : Prop} [Decidable p] {yes no : Decoder α} (hy : p → Saves written yes encode)
    (hn : Saves written no encode) :
    Saves written (fun bytes => if p then yes bytes else no bytes) encode := by
  by_cases h : p
  · simpa only [if_pos h] using hy h
  · simpa only [if_neg h] using hn

theorem Saves.bind {decode : Decoder α} {next : α × Bytes → Except Problem (β × Bytes)}
    {encode' : β → Bytes} (first : Saves [] decode encode)
    (second : ∀ a, Saves (written ++ encode a) (fun bytes => next (a, bytes)) encode') :
    Saves written (fun bytes => decode bytes >>= next) encode' := by
  intro bytes b rest h
  obtain ⟨⟨a, middle⟩, accepted, later⟩ := bind_eq_ok.1 h
  have head : NoLonger (encode a ++ middle) bytes := first bytes a middle accepted
  have tail := second a middle b rest later
  rw [List.append_assoc] at tail
  exact tail.trans (head.append_left written)

/-! ### Numbers -/

theorem littleEndian_ofLittleEndian (bytes : Bytes) :
    littleEndian bytes.length (ofLittleEndian bytes) = bytes := by
  induction bytes with
  | nil => rfl
  | cons b bytes ih =>
    have small : b.toNat < 256 := b.toNat_lt
    have low : (b.toNat + 256 * ofLittleEndian bytes) % 256 = b.toNat := by omega
    have high : (b.toNat + 256 * ofLittleEndian bytes) / 256 = ofLittleEndian bytes := by omega
    rw [ofLittleEndian, List.length_cons, littleEndian, low, high, ih, UInt8.ofNat_toNat]

theorem ofLittleEndian_lt (bytes : Bytes) : ofLittleEndian bytes < 256 ^ bytes.length := by
  induction bytes with
  | nil => decide
  | cons b bytes ih =>
    have small : b.toNat < 256 := b.toNat_lt
    rw [ofLittleEndian, List.length_cons, Nat.pow_succ]
    omega

theorem decodeFixed_ok {count n : Nat} {bytes rest : Bytes}
    (h : decodeFixed count bytes = .ok (n, rest)) :
    n < 256 ^ count ∧ bytes = littleEndian count n ++ rest := by
  obtain ⟨⟨head, middle⟩, taken, later⟩ := bind_eq_ok.1 h
  cases later
  obtain ⟨rfl, rfl⟩ := take_ok taken
  exact ⟨ofLittleEndian_lt head, by rw [littleEndian_ofLittleEndian]⟩

theorem saves_byte : Saves [] decodeByte fun n => [UInt8.ofNat n] := by
  intro bytes n rest h
  cases bytes with
  | nil => cases h
  | cons b bytes =>
    cases h
    dsimp only
    rw [UInt8.ofNat_toNat]
    exact noLonger_self _

theorem saves_fixed {lead : UInt8} {count : Nat}
    (h : ∀ n < 256 ^ count, NoLonger (encodeNat n) (lead :: littleEndian count n)) :
    Saves [lead] (decodeFixed count) encodeNat := by
  intro bytes n rest accepted
  obtain ⟨small, rfl⟩ := decodeFixed_ok accepted
  rw [← List.append_assoc, noLonger_append_right_iff]
  exact h n small

/-- A number is written in the shortest of the forms in which it can be read. -/
theorem noLonger_encodeNat (n : Nat) :
    (n < 256 ^ 2 → NoLonger (encodeNat n) (251 :: littleEndian 2 n)) ∧
      (n < 256 ^ 4 → NoLonger (encodeNat n) (252 :: littleEndian 4 n)) ∧
      NoLonger (encodeNat n) (253 :: littleEndian 8 n) := by
  have size (lead : UInt8) (count : Nat) : (lead :: littleEndian count n).length = count + 1 := by
    rw [List.length_cons, length_littleEndian]
  unfold encodeNat
  split
  case isTrue =>
    refine ⟨fun _ => .inr ?_, fun _ => .inr ?_, .inr ?_⟩ <;>
      rw [size, List.length_singleton] <;> decide
  split
  case isTrue =>
    refine ⟨fun _ => noLonger_self _, fun _ => .inr ?_, .inr ?_⟩ <;> rw [size, size] <;> decide
  split
  case isTrue =>
    refine ⟨fun _ => ?_, fun _ => noLonger_self _, .inr ?_⟩
    · omega
    · rw [size, size]
      decide
  case isFalse => refine ⟨fun _ => ?_, fun _ => ?_, noLonger_self _⟩ <;> omega

theorem saves_nat (width : Nat) : Saves [] (decodeNat width) encodeNat := by
  refine saves_byte.bind fun lead => ?_
  refine .ite (fun small => saves_pure (if_pos small).symm) ?_
  refine .ite (fun wide => ?_) (.ite (fun wide => ?_) (.ite (fun wide => ?_) (saves_error _)))
  · subst wide
    exact saves_fixed fun n => (noLonger_encodeNat n).1
  · subst wide
    exact saves_fixed fun n => (noLonger_encodeNat n).2.1
  · rw [wide.1]
    exact saves_fixed fun n _ => (noLonger_encodeNat n).2.2

/-! ### Parts -/

theorem saves_text : Saves [] decodeText encodeText := by
  intro bytes s rest h
  obtain ⟨⟨size, middle⟩, counted, later⟩ := bind_eq_ok.1 h
  obtain ⟨⟨head, last⟩, taken, later⟩ := bind_eq_ok.1 later
  dsimp only at later
  split at later
  case h_2 => cases later
  case h_1 read =>
    cases later
    obtain ⟨rfl, rfl⟩ := take_ok taken
    have same := Utf8.encode_of_decode? head s read
    rw [encodeText, same, List.append_assoc]
    exact saves_nat 8 bytes _ _ counted

theorem saves_float : Saves [] decodeFloat encodeFloat := by
  intro bytes x rest h
  obtain ⟨⟨bits, middle⟩, accepted, later⟩ := bind_eq_ok.1 h
  cases later
  obtain ⟨small, rfl⟩ := decodeFixed_ok accepted
  rw [encodeFloat, Binary64.bits_ofBits small]
  exact noLonger_self _

theorem saves_choice [BEq α] [LawfulBEq α] {values : List α} (distinct : values.Nodup) :
    Saves [] (decodeChoice values) (encodeChoice values) := by
  refine (saves_nat 4).bind fun i => ?_
  dsimp only
  cases found : values[i]? with
  | none => exact saves_error _
  | some a =>
    obtain ⟨inside, rfl⟩ := List.getElem?_eq_some_iff.1 found
    refine saves_pure ?_
    rw [encodeChoice, distinct.idxOf_getElem]
    rfl

variable {decode : Decoder α}

theorem Saves.option (h : Saves [] decode encode) :
    Saves [] (decodeOption decode) (encodeOption encode) := by
  refine saves_byte.bind fun tag => ?_
  refine .ite (fun absent => saves_pure ?_) (.ite (fun present => ?_) (saves_error _))
  · rw [absent]
    rfl
  · rw [present]
    exact h.bind fun a => saves_pure rfl

theorem Saves.many (h : Saves [] decode encode) (count : Nat) :
    Saves [] (decodeMany decode count) (List.flatMap encode) := by
  induction count with
  | zero => exact saves_pure rfl
  | succ count ih =>
    refine h.bind fun a => ih.bind fun as => saves_pure ?_
    rw [List.flatMap_cons]
    rfl

theorem length_of_decodeMany {count : Nat} {bytes rest : Bytes} {as : List α}
    (h : decodeMany decode count bytes = .ok (as, rest)) : as.length = count := by
  induction count generalizing bytes as with
  | zero =>
    cases h
    rfl
  | succ count ih =>
    obtain ⟨⟨a, middle⟩, -, later⟩ := bind_eq_ok.1 h
    obtain ⟨⟨as, last⟩, others, later⟩ := bind_eq_ok.1 later
    cases later
    rw [List.length_cons, ih others]

theorem Saves.list (h : Saves [] decode encode) :
    Saves [] (decodeList decode) (encodeList encode) := by
  intro bytes as rest accepted
  obtain ⟨⟨count, middle⟩, counted, later⟩ := bind_eq_ok.1 accepted
  have items := h.many count middle as rest later
  rw [encodeList, length_of_decodeMany later, List.append_assoc]
  exact (items.append_left _).trans (saves_nat 8 bytes count middle counted)

/-! ### Ports, blocks and workspaces -/

theorem saves_portKind : Saves [] (decodeChoice PortKind.all) (encodeChoice PortKind.all) :=
  saves_choice (by decide)

theorem saves_category : Saves [] (decodeChoice Category.all) (encodeChoice Category.all) :=
  saves_choice (by decide)

theorem saves_input : Saves [] decodeInput encodeInput :=
  saves_text.bind fun _ => saves_text.bind fun _ => saves_portKind.bind fun _ =>
    saves_text.option.bind fun _ => saves_pure rfl

theorem saves_output : Saves [] decodeOutput encodeOutput :=
  saves_text.bind fun _ => saves_text.bind fun _ => saves_portKind.bind fun _ => saves_pure rfl

theorem saves_block : Saves [] decodeBlock encodeBlock :=
  saves_text.bind fun _ => saves_text.bind fun _ => saves_category.bind fun _ =>
    saves_text.bind fun _ => saves_text.bind fun _ => saves_text.bind fun _ =>
    saves_float.bind fun _ => saves_float.bind fun _ => saves_text.option.bind fun _ =>
    saves_input.list.bind fun _ => saves_output.list.bind fun _ => saves_pure rfl

theorem saves_workspace : Saves [] decodeWorkspace encodeWorkspace :=
  saves_block.list.bind fun _ => saves_text.option.bind fun _ => saves_pure rfl

/-! ### Documents -/

/-- There is one header only. -/
theorem decodeHeader_ok {bytes rest : Bytes} (h : decodeHeader bytes = .ok ((), rest)) :
    bytes = header ++ rest := by
  obtain ⟨⟨head, middle⟩, marked, later⟩ := bind_eq_ok.1 h
  obtain ⟨rfl, -⟩ := take_ok (takeHeader_eq_ok_iff.1 marked)
  dsimp only at later
  split at later
  case isTrue => cases later
  case isFalse known =>
    obtain ⟨⟨number, last⟩, numbered, final⟩ := bind_eq_ok.1 later
    obtain ⟨rfl, size⟩ := take_ok (takeHeader_eq_ok_iff.1 numbered)
    dsimp only at final
    split at final
    case isTrue => cases final
    case isFalse current =>
      cases final
      have same : littleEndian 4 version = number := by
        rw [← size, ← Decidable.not_not.1 current, littleEndian_ofLittleEndian]
      rw [header, same, ← Decidable.not_not.1 known, List.append_assoc]

end Binary

/-- A document that is accepted starts with bytes that say the same whatever follows them, that are
not accepted when something is missing at their end, and that get shorter or stay as they are
when the workspace is saved again. -/
theorem Workspace.ofBinary_resaved (bytes : Bytes) (w : Workspace)
    (accepted : Workspace.ofBinary bytes = .ok w) :
    ∃ used, used <+: bytes ∧
      (∀ more, Workspace.ofBinary (used ++ more) = .ok w) ∧
      (∀ part, part <+: used → part ≠ used → ∀ w', Workspace.ofBinary part ≠ .ok w') ∧
      w.toBinary.length ≤ used.length ∧
      (w.toBinary.length = used.length ↔ w.toBinary = used) := by
  obtain ⟨⟨_, body⟩, headed, later⟩ := bind_eq_ok.1 accepted
  obtain ⟨⟨_, rest⟩, decoded, later⟩ := bind_eq_ok.1 later
  cases later
  obtain rfl := Binary.decodeHeader_ok headed
  obtain ⟨used, rfl, spans⟩ := Binary.framed_workspace _ _ _ decoded
  have shorter : Binary.NoLonger w.toBinary (Binary.header ++ used) := by
    have saved := Binary.saves_workspace _ _ _ decoded
    exact (Binary.noLonger_append_right_iff.1 saved).append_left Binary.header
  obtain ⟨reads, refuses⟩ := Binary.ofBinary_header_append spans
  refine ⟨Binary.header ++ used, ?_, reads, ?_, shorter.length_le, shorter.length_eq_iff⟩
  · rw [← List.append_assoc]
    exact List.prefix_append _ _
  · intro part beginning missing w' whole
    rw [refuses part beginning missing] at whole
    cases whole

/-- A document without blocks in which the number of blocks takes three bytes, the length of the
selected id takes five, and one byte follows. -/
def Binary.wasteful : Bytes :=
  Binary.header ++ [251, 0, 0, 1, 252, 1, 0, 0, 0, 65, 7]

theorem Workspace.ofBinary_resaved_wasteful :
    Workspace.ofBinary Binary.wasteful = .ok ⟨[], some ['A']⟩ ∧
      ∃ used, used <+: Binary.wasteful ∧
        (∀ more, Workspace.ofBinary (used ++ more) = .ok ⟨[], some ['A']⟩) ∧
        (∀ part, part <+: used → part ≠ used → ∀ w', Workspace.ofBinary part ≠ .ok w') ∧
        (Workspace.toBinary ⟨[], some ['A']⟩).length ≤ used.length ∧
        ((Workspace.toBinary ⟨[], some ['A']⟩).length = used.length ↔
          Workspace.toBinary ⟨[], some ['A']⟩ = used) := by
  have accepted : Workspace.ofBinary Binary.wasteful = .ok ⟨[], some ['A']⟩ := rfl
  exact ⟨accepted, Workspace.ofBinary_resaved _ _ accepted⟩

end BlockCanvas
