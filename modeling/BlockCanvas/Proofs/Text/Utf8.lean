import BlockCanvas.Text.Utf8

/-!
# Reading UTF-8 back

The bytes of a text are read as that text: `decode?_encode`.  Each of the four forms of a character
is read on its own, with any bytes behind it.  No other bytes are read as the text:
`encode_of_decode?`.
-/

namespace BlockCanvas
namespace Utf8

theorem toNat_ofNat {n : Nat} (h : n < 256) : (UInt8.ofNat n).toNat = n :=
  UInt8.toNat_ofNat_of_lt h

theorem toNat_trail (n place : Nat) :
    (trail n place).toNat = 0x80 + n >>> (6 * place) % 64 := by
  have : n >>> (6 * place) % 64 < 64 := Nat.mod_lt _ (by decide)
  exact toNat_ofNat (by omega)

theorem bits?_trail (n place : Nat) : bits? (trail n place) = some (n >>> (6 * place) % 64) := by
  have : n >>> (6 * place) % 64 < 64 := Nat.mod_lt _ (by decide)
  rw [bits?, toNat_trail, if_pos (by omega), Nat.add_sub_cancel_left]

theorem scalar?_toNat {least : Nat} {c : Char} (h : least ≤ c.toNat) :
    scalar? least c.toNat = some c := by
  rw [scalar?, if_pos ⟨h, c.valid⟩, Char.ofNat_toNat]

/-- Scalar values end below `0x110000`. -/
theorem toNat_lt_of_char (c : Char) : c.toNat < 0x110000 := by
  have : c.toNat.isValidChar := c.valid
  simp only [Nat.isValidChar] at this
  omega

/-- A character is read from its bytes, whichever of the four forms it has. -/
theorem decode?_encodeChar_append (c : Char) (s : Bytes) :
    decode? (encodeChar c ++ s) = (decode? s).map (c :: ·) := by
  have hn := toNat_lt_of_char c
  simp only [encodeChar]
  split
  case isTrue h =>
    have lead : (UInt8.ofNat c.toNat).toNat = c.toNat := toNat_ofNat (by omega)
    rw [List.singleton_append, decode?.eq_def]
    simp only [lead, if_pos h, Char.ofNat_toNat]
  split
  case isTrue h h2 =>
    have lead : (UInt8.ofNat (0xC0 + c.toNat >>> 6)).toNat = 0xC0 + c.toNat >>> 6 :=
      toNat_ofNat (by omega)
    have value : (0xC0 + c.toNat >>> 6 - 0xC0) * 64 + c.toNat % 64 = c.toNat := by omega
    simp only [List.cons_append, List.nil_append, decode?, lead, bits?_trail, Nat.reduceMul,
      Nat.shiftRight_zero]
    rw [if_neg (by omega), if_neg (by omega), if_pos (by omega)]
    simp only [Option.bind_eq_bind, Option.bind_some, value]
    rw [scalar?_toNat (by omega), Option.bind_some]
  split
  case isTrue h h2 h3 =>
    have lead : (UInt8.ofNat (0xE0 + c.toNat >>> 12)).toNat = 0xE0 + c.toNat >>> 12 :=
      toNat_ofNat (by omega)
    have value : ((0xE0 + c.toNat >>> 12 - 0xE0) * 64 + c.toNat >>> 6 % 64) * 64 +
        c.toNat % 64 = c.toNat := by omega
    simp only [List.cons_append, List.nil_append, decode?, lead, bits?_trail, Nat.reduceMul,
      Nat.shiftRight_zero]
    rw [if_neg (by omega), if_neg (by omega), if_neg (by omega), if_pos (by omega)]
    simp only [Option.bind_eq_bind, Option.bind_some, value]
    rw [scalar?_toNat (by omega), Option.bind_some]
  case isFalse h h2 h3 =>
    have lead : (UInt8.ofNat (0xF0 + c.toNat >>> 18)).toNat = 0xF0 + c.toNat >>> 18 :=
      toNat_ofNat (by omega)
    have value : (((0xF0 + c.toNat >>> 18 - 0xF0) * 64 + c.toNat >>> 12 % 64) * 64 +
        c.toNat >>> 6 % 64) * 64 + c.toNat % 64 = c.toNat := by omega
    simp only [List.cons_append, List.nil_append, decode?, lead, bits?_trail, Nat.reduceMul,
      Nat.shiftRight_zero]
    rw [if_neg (by omega), if_neg (by omega), if_neg (by omega), if_neg (by omega),
      if_pos (by omega)]
    simp only [Option.bind_eq_bind, Option.bind_some, value]
    rw [scalar?_toNat (by omega), Option.bind_some]

/-- The bytes of a text are read as that text. -/
theorem decode?_encode (s : Text) : decode? (encode s) = some s := by
  induction s with
  | nil => rfl
  | cons c s ih =>
    show decode? (encodeChar c ++ encode s) = _
    rw [decode?_encodeChar_append, ih, Option.map_some]

/-! ### Only one form -/

theorem toNat_charOfNat {n : Nat} (h : n.isValidChar) : (Char.ofNat n).toNat = n := by
  rw [Char.ofNat, dif_pos h]
  rfl

theorem eq_of_bits? {b : UInt8} {n : Nat} (h : bits? b = some n) :
    b.toNat = 0x80 + n ∧ n < 64 := by
  unfold bits? at h
  split at h
  case isTrue =>
    have := Option.some.inj h
    omega
  case isFalse => cases h

theorem eq_of_scalar? {least n : Nat} {c : Char} (h : scalar? least n = some c) :
    least ≤ n ∧ c.toNat = n := by
  unfold scalar? at h
  split at h
  case isTrue valid =>
    cases h
    exact ⟨valid.1, toNat_charOfNat valid.2⟩
  case isFalse => cases h

theorem ofNat_eq {b : UInt8} {n : Nat} (h : b.toNat = n) : UInt8.ofNat n = b := by
  rw [← h, UInt8.ofNat_toNat]

theorem trail_eq {b : UInt8} {n place : Nat} (h : b.toNat = 0x80 + n >>> (6 * place) % 64) :
    trail n place = b := ofNat_eq h

section

variable {a b c d : UInt8} {x y z : Nat} {e : Char}

theorem encodeChar_two (lead : 0xC0 ≤ a.toNat ∧ a.toNat < 0xE0) (hb : bits? b = some x)
    (he : scalar? 0x80 ((a.toNat - 0xC0) * 64 + x) = some e) : encodeChar e = [a, b] := by
  have low := eq_of_bits? hb
  have value := eq_of_scalar? he
  rw [encodeChar]
  rw [if_neg (by omega), if_pos (by omega), ofNat_eq (b := a) (by omega),
    trail_eq (b := b) (by omega)]

theorem encodeChar_three (lead : 0xE0 ≤ a.toNat ∧ a.toNat < 0xF0) (hb : bits? b = some x)
    (hc : bits? c = some y)
    (he : scalar? 0x800 (((a.toNat - 0xE0) * 64 + x) * 64 + y) = some e) :
    encodeChar e = [a, b, c] := by
  have middle := eq_of_bits? hb
  have low := eq_of_bits? hc
  have value := eq_of_scalar? he
  rw [encodeChar]
  rw [if_neg (by omega), if_neg (by omega), if_pos (by omega), ofNat_eq (b := a) (by omega),
    trail_eq (b := b) (by omega), trail_eq (b := c) (by omega)]

theorem encodeChar_four (lead : 0xF0 ≤ a.toNat) (hb : bits? b = some x) (hc : bits? c = some y)
    (hd : bits? d = some z)
    (he : scalar? 0x10000 ((((a.toNat - 0xF0) * 64 + x) * 64 + y) * 64 + z) = some e) :
    encodeChar e = [a, b, c, d] := by
  have high := eq_of_bits? hb
  have middle := eq_of_bits? hc
  have low := eq_of_bits? hd
  have value := eq_of_scalar? he
  rw [encodeChar]
  rw [if_neg (by omega), if_neg (by omega), if_neg (by omega), ofNat_eq (b := a) (by omega),
    trail_eq (b := b) (by omega), trail_eq (b := c) (by omega), trail_eq (b := d) (by omega)]

end

/-- Bytes that are read as a text are the bytes of this text. -/
theorem encode_of_decode? (bytes : Bytes) : ∀ s, decode? bytes = some s → encode s = bytes := by
  have behind {c : Char} {s : Text} {head rest : Bytes} (form : encodeChar c = head)
      (read : encode s = rest) : encode (c :: s) = head ++ rest := by
    rw [← form, ← read]
    rfl
  -- the cases that accept are the four forms of a character
  fun_induction decode? bytes with
  | case1 =>
    intro s h
    cases h
    rfl
  | case2 a rest lead one ih =>
    intro s h
    obtain ⟨s, read, rfl⟩ := Option.map_eq_some_iff.1 h
    have value : (Char.ofNat lead).toNat = lead := toNat_charOfNat (.inl (by omega))
    have form : encodeChar (Char.ofNat lead) = [a] := by
      simp only [encodeChar, value]
      rw [if_pos one, ofNat_eq rfl]
    exact behind form (ih s read)
  | case4 a lead h1 h2 two b rest ih =>
    intro s h
    simp only [Option.bind_eq_bind, Option.bind_eq_some_iff, Option.map_eq_some_iff] at h
    obtain ⟨x, hb, c, hc, s, read, rfl⟩ := h
    exact behind (encodeChar_two ⟨Nat.not_lt.1 h2, two⟩ hb hc) (ih s read)
  | case6 a lead h1 h2 h3 three b c rest ih =>
    intro s h
    simp only [Option.bind_eq_bind, Option.bind_eq_some_iff, Option.map_eq_some_iff] at h
    obtain ⟨x, hb, y, hc, d, hd, s, read, rfl⟩ := h
    exact behind (encodeChar_three ⟨Nat.not_lt.1 h3, three⟩ hb hc hd) (ih s read)
  | case8 a lead h1 h2 h3 h4 four b c d rest ih =>
    intro s h
    simp only [Option.bind_eq_bind, Option.bind_eq_some_iff, Option.map_eq_some_iff] at h
    obtain ⟨x, hb, y, hc, z, hd, e, he, s, read, rfl⟩ := h
    exact behind (encodeChar_four (Nat.not_lt.1 h4) hb hc hd he) (ih s read)
  | case3 | case5 | case7 | case9 | case10 => exact fun _ h => nomatch h

end Utf8
end BlockCanvas
