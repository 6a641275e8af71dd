import BlockCanvas.Proofs.Document.Binary

/-!
# Where binary documents end

Every part of a binary document says itself where it ends.  `Spans cut decode used a` says that the
bytes `used` are read as `a`, whatever follows them, and that any beginning of them is found to be
too short; `Framed` says that a decoder reads such bytes whenever it accepts.  Sequences of framed
decoders are framed (`Framed.bind`), and from this every decoder of the format is.

Main statement: `ofBinary_truncated`, a document that was cut off is refused for its end and for
nothing else.
-/

namespace BlockCanvas
namespace Binary

variable {α β : Type} {cut : Problem}

/-- The decoder reads the bytes `used` as `a`, whatever follows, and finds any beginning of them
too short. -/
structure Spans (cut : Problem) (decode : Decoder α) (used : Bytes) (a : α) : Prop where
  reads : ∀ more, decode (used ++ more) = .ok (a, more)
  refuses : ∀ part, part <+: used → part ≠ used → decode part = .error cut

/-- What the decoder accepts starts with bytes that end by themselves. -/
def Framed (cut : Problem) (decode : Decoder α) : Prop :=
  ∀ bytes a rest, decode bytes = .ok (a, rest) →
    ∃ used, bytes = used ++ rest ∧ Spans cut decode used a

/-- Bytes that are accepted whole end by themselves. -/
theorem Framed.spans {decode : Decoder α} {used : Bytes} {a : α} (h : Framed cut decode)
    (accepted : decode used = .ok (a, [])) : Spans cut decode used a := by
  obtain ⟨_, whole, spans⟩ := h used a [] accepted
  rw [List.append_nil] at whole
  rwa [whole]

/-! ### Beginnings -/

variable {part used used' : Bytes}

theorem length_lt_of_prefix (beginning : part <+: used) (shorter : part ≠ used) :
    part.length < used.length :=
  Nat.lt_of_le_of_ne beginning.length_le fun same => shorter (beginning.eq_of_length same)

/-- A cut through two strings of bytes goes through the first or leaves it whole. -/
theorem prefix_append_cases (beginning : part <+: used ++ used') (shorter : part ≠ used ++ used') :
    (part <+: used ∧ part ≠ used) ∨
      ∃ part', part = used ++ part' ∧ part' <+: used' ∧ part' ≠ used' := by
  by_cases whole : used <+: part
  · obtain ⟨part', rfl⟩ := whole
    refine .inr ⟨part', rfl, (List.prefix_append_right_inj used).1 beginning, ?_⟩
    rintro rfl
    exact shorter rfl
  · refine .inl ⟨?_, fun same => whole (same ▸ List.prefix_rfl)⟩
    exact (List.prefix_or_prefix_of_prefix beginning (List.prefix_append _ _)).resolve_right whole

/-! ### Decoders that are put together -/

theorem framed_pure (a : α) : Framed cut fun bytes => .ok (a, bytes) := by
  intro bytes b rest h
  cases h
  refine ⟨[], rfl, fun _ => rfl, fun part beginning shorter => ?_⟩
  exact absurd (List.prefix_nil.1 beginning) shorter

theorem framed_error (e : Problem) : Framed cut (fun _ => .error e : Decoder α) :=
  fun _ _ _ h => nomatch h

theorem Framed.ite {p : Prop} [Decidable p] {yes no : Decoder α} (hy : Framed cut yes)
    (hn : Framed cut no) : Framed cut fun bytes => if p then yes bytes else no bytes := by
  by_cases h : p
  · simpa only [if_pos h] using hy
  · simpa only [if_neg h] using hn

theorem Spans.bind {decode : Decoder α} {next : α × Bytes → Except Problem (β × Bytes)}
    {a : α} {b : β} (first : Spans cut decode used a)
    (second : Spans cut (fun bytes => next (a, bytes)) used' b) :
    Spans cut (fun bytes => decode bytes >>= next) (used ++ used') b where
  reads more := by rw [List.append_assoc, first.reads, ok_bind, second.reads]
  refuses part beginning shorter := by
    rcases prefix_append_cases beginning shorter with ⟨beginning, shorter⟩ |
      ⟨part', rfl, beginning, shorter⟩
    · rw [first.refuses part beginning shorter, error_bind]
    · rw [first.reads, ok_bind, second.refuses part' beginning shorter]

theorem Framed.bind {decode : Decoder α} {next : α × Bytes → Except Problem (β × Bytes)}
    (first : Framed cut decode) (second : ∀ a, Framed cut fun bytes => next (a, bytes)) :
    Framed cut fun bytes => decode bytes >>= next := by
  intro bytes b rest h
  obtain ⟨⟨a, middle⟩, accepted, later⟩ := bind_eq_ok.1 h
  obtain ⟨used, rfl, spans⟩ := first bytes a middle accepted
  obtain ⟨used', rfl, spans'⟩ := second a middle b rest later
  exact ⟨used ++ used', (List.append_assoc ..).symm, spans.bind spans'⟩

/-! ### Parts -/

theorem take_of_length_lt {count : Nat} {bytes : Bytes} (h : bytes.length < count) :
    take count bytes = .error .cutShort := by
  have : (bytes.take count).length < count := by
    rw [List.length_take]
    omega
  rw [take, if_pos this]

theorem take_ok {count : Nat} {bytes head rest : Bytes} (h : take count bytes = .ok (head, rest)) :
    bytes = head ++ rest ∧ head.length = count := by
  unfold take at h
  dsimp only at h
  split at h
  case isTrue => cases h
  case isFalse enough =>
    cases h
    have := List.length_take_le count bytes
    exact ⟨(List.take_append_drop count bytes).symm, by omega⟩

theorem framed_take (count : Nat) : Framed .cutShort (take count) := by
  intro bytes head rest h
  obtain ⟨rfl, length⟩ := take_ok h
  refine ⟨head, rfl, take_append length, fun part beginning shorter => take_of_length_lt ?_⟩
  rw [← length]
  exact length_lt_of_prefix beginning shorter

theorem framed_byte : Framed .cutShort decodeByte := by
  intro bytes n rest h
  cases bytes with
  | nil => cases h
  | cons b bytes =>
    cases h
    refine ⟨[b], rfl, fun _ => rfl, fun part beginning shorter => ?_⟩
    rcases List.prefix_cons_iff.1 beginning with rfl | ⟨part, rfl, nothing⟩
    · rfl
    · rw [List.prefix_nil.1 nothing] at shorter
      exact absurd rfl shorter

theorem framed_fixed (count : Nat) : Framed .cutShort (decodeFixed count) :=
  (framed_take count).bind fun _ => framed_pure _

theorem framed_nat (width : Nat) : Framed .cutShort (decodeNat width) :=
  framed_byte.bind fun n =>
    .ite (framed_pure n) <| .ite (framed_fixed 2) <| .ite (framed_fixed 4) <|
      .ite (framed_fixed 8) <| framed_error _

theorem framed_text : Framed .cutShort decodeText := by
  refine (framed_nat 8).bind fun size => (framed_take size).bind fun head => ?_
  dsimp only
  cases Utf8.decode? head with
  | some s => exact framed_pure s
  | none => exact framed_error _

theorem framed_float : Framed .cutShort decodeFloat :=
  (framed_fixed 8).bind fun _ => framed_pure _

theorem framed_choice (values : List α) : Framed .cutShort (decodeChoice values) := by
  refine (framed_nat 4).bind fun i => ?_
  dsimp only
  cases values[i]? with
  | some a => exact framed_pure a
  | none => exact framed_error _

variable {decode : Decoder α}

theorem Framed.option (h : Framed .cutShort decode) : Framed .cutShort (decodeOption decode) :=
  framed_byte.bind fun _ =>
    .ite (framed_pure none) <| .ite (h.bind fun _ => framed_pure _) <| framed_error _

theorem Framed.many (h : Framed .cutShort decode) (count : Nat) :
    Framed .cutShort (decodeMany decode count) := by
  induction count with
  | zero => exact framed_pure []
  | succ count ih => exact h.bind fun _ => ih.bind fun _ => framed_pure _

theorem Framed.list (h : Framed .cutShort decode) : Framed .cutShort (decodeList decode) :=
  (framed_nat 8).bind fun count => h.many count

/-! ### Ports, blocks and workspaces -/

theorem framed_input : Framed .cutShort decodeInput :=
  framed_text.bind fun _ => framed_text.bind fun _ => (framed_choice _).bind fun _ =>
    framed_text.option.bind fun _ => framed_pure _

theorem framed_output : Framed .cutShort decodeOutput :=
  framed_text.bind fun _ => framed_text.bind fun _ => (framed_choice _).bind fun _ => framed_pure _

theorem framed_block : Framed .cutShort decodeBlock :=
  framed_text.bind fun _ => framed_text.bind fun _ => (framed_choice _).bind fun _ =>
    framed_text.bind fun _ => framed_text.bind fun _ => framed_text.bind fun _ =>
    framed_float.bind fun _ => framed_float.bind fun _ => framed_text.option.bind fun _ =>
    framed_input.list.bind fun _ => framed_output.list.bind fun _ => framed_pure _

theorem framed_workspace : Framed .cutShort decodeWorkspace :=
  framed_block.list.bind fun _ => framed_text.option.bind fun _ => framed_pure _

/-! ### Documents -/

/-- The bytes before the workspace. -/
def header : Bytes := mark ++ littleEndian 4 version

theorem length_header : header.length = 15 := by decide

theorem takeHeader_eq_ok_iff {count : Nat} {bytes : Bytes} {r : Bytes × Bytes} :
    takeHeader count bytes = .ok r ↔ take count bytes = .ok r := by
  unfold takeHeader
  cases take count bytes <;> simp

theorem framed_takeHeader (count : Nat) : Framed .noHeader (takeHeader count) := by
  intro bytes head rest h
  obtain ⟨used, rfl, spans⟩ := framed_take count bytes head rest (takeHeader_eq_ok_iff.1 h)
  refine ⟨used, rfl, ?_, ?_⟩
  · exact fun more => takeHeader_eq_ok_iff.2 (spans.reads more)
  · intro part beginning shorter
    rw [takeHeader, spans.refuses part beginning shorter]

theorem framed_header : Framed .noHeader decodeHeader :=
  (framed_takeHeader _).bind fun _ =>
    .ite (framed_error _) <| (framed_takeHeader _).bind fun _ =>
      .ite (framed_error _) (framed_pure _)

theorem spans_header : Spans .noHeader decodeHeader header () := by
  have accepted := decodeHeader_append []
  rw [List.append_nil] at accepted
  exact framed_header.spans accepted

theorem spans_encodeWorkspace {w : Workspace} (h : WorkspaceFits w) :
    Spans .cutShort decodeWorkspace (encodeWorkspace w) w := by
  have accepted := reads_workspace w h []
  rw [List.append_nil] at accepted
  exact framed_workspace.spans accepted

/-- A document ends where the bytes of the workspace end. -/
theorem ofBinary_header_append {w : Workspace} (spans : Spans .cutShort decodeWorkspace used w) :
    (∀ more, Workspace.ofBinary (header ++ used ++ more) = .ok w) ∧
      ∀ part, part <+: header ++ used → part ≠ header ++ used →
        Workspace.ofBinary part = .error (if part.length < 15 then .noHeader else .cutShort) := by
  refine ⟨fun more => ?_, fun part beginning shorter => ?_⟩
  · rw [List.append_assoc, Workspace.ofBinary, spans_header.reads, ok_bind]
    dsimp only
    rw [spans.reads, ok_bind]
    rfl
  rcases prefix_append_cases beginning shorter with ⟨beginning, shorter⟩ |
    ⟨part, rfl, beginning, shorter⟩
  · have short : part.length < 15 := length_header ▸ length_lt_of_prefix beginning shorter
    rw [if_pos short, Workspace.ofBinary, spans_header.refuses part beginning shorter, error_bind]
  · have long : ¬ (header ++ part).length < 15 := by
      rw [List.length_append, length_header]
      omega
    rw [if_neg long, Workspace.ofBinary, spans_header.reads, ok_bind]
    dsimp only
    rw [spans.refuses part beginning shorter, error_bind]

end Binary

/-- A document that was cut off is refused: for its header if the cut is in there, and otherwise
because the bytes end within the workspace. -/
theorem Workspace.ofBinary_truncated (w : Workspace) (h : Binary.WorkspaceFits w) (part : Bytes)
    (beginning : part <+: w.toBinary) (shorter : part ≠ w.toBinary) :
    Workspace.ofBinary part =
      .error (if part.length < 15 then .noHeader else .cutShort) :=
  (Binary.ofBinary_header_append (Binary.spans_encodeWorkspace h)).2 part beginning shorter

/-- The unusual workspace, cut within the version, and within the `300` bytes of a label. -/
theorem Workspace.ofBinary_truncated_unusual :
    Binary.WorkspaceFits Binary.unusual ∧
      Binary.unusual.toBinary.take 12 <+: Binary.unusual.toBinary ∧
      Binary.unusual.toBinary.take 12 ≠ Binary.unusual.toBinary ∧
      Workspace.ofBinary (Binary.unusual.toBinary.take 12) = .error .noHeader ∧
      Binary.unusual.toBinary.take 101 <+: Binary.unusual.toBinary ∧
      Binary.unusual.toBinary.take 101 ≠ Binary.unusual.toBinary ∧
      Workspace.ofBinary (Binary.unusual.toBinary.take 101) = .error .cutShort := by
  have beginning (count : Nat) :
      Binary.unusual.toBinary.take count <+: Binary.unusual.toBinary := List.take_prefix _ _
  have shorter : Binary.unusual.toBinary.take 12 ≠ Binary.unusual.toBinary := by decide +kernel
  have shorter' : Binary.unusual.toBinary.take 101 ≠ Binary.unusual.toBinary := by decide +kernel
  have short : (Binary.unusual.toBinary.take 12).length < 15 := by decide +kernel
  have long : ¬ (Binary.unusual.toBinary.take 101).length < 15 := by decide +kernel
  have refused := Workspace.ofBinary_truncated Binary.unusual Binary.unusual_fits _
    (beginning 12) shorter
  have refused' := Workspace.ofBinary_truncated Binary.unusual Binary.unusual_fits _
    (beginning 101) shorter'
  rw [if_pos short] at refused
  rw [if_neg long] at refused'
  exact ⟨Binary.unusual_fits, beginning 12, shorter, refused, beginning 101, shorter', refused'⟩

end BlockCanvas
