import BlockCanvas.Text.Basic

/-!
# UTF-8

Texts as bytes.  `decode?` accepts the shortest form of every scalar value and nothing else.
-/

namespace BlockCanvas

abbrev Bytes := List UInt8

namespace Utf8

/-- A byte of a longer form: the six bits of `n` above the lowest `6 * place` ones. -/
def trail (n place : Nat) : UInt8 := UInt8.ofNat (0x80 + n >>> (6 * place) % 64)

/-- The one to four bytes of a character. -/
def encodeChar (c : Char) : Bytes :=
  let n := c.toNat
  if n < 0x80 then [UInt8.ofNat n]
  else if n < 0x800 then [UInt8.ofNat (0xC0 + n >>> 6), trail n 0]
  else if n < 0x10000 then [UInt8.ofNat (0xE0 + n >>> 12), trail n 1, trail n 0]
  else [UInt8.ofNat (0xF0 + n >>> 18), trail n 2, trail n 1, trail n 0]

def encode (s : Text) : Bytes := s.flatMap encodeChar

/-- The number of bytes of a text. -/
def size (s : Text) : Nat := (encode s).length

/-- The scalar value `n`, if it is one and is not small enough for a shorter form. -/
def scalar? (least n : Nat) : Option Char :=
  if least ≤ n ∧ n.isValidChar then some (Char.ofNat n) else none

/-- The six bits in a byte that continues a character. -/
def bits? (b : UInt8) : Option Nat :=
  if 0x80 ≤ b.toNat ∧ b.toNat < 0xC0 then some (b.toNat - 0x80) else none

/-- The text of bytes, if they are one. -/
def decode? : Bytes → Option Text
  | [] => some []
  | a :: s =>
    let lead := a.toNat
    if lead < 0x80 then (decode? s).map (Char.ofNat lead :: ·)
    else if lead < 0xC0 then none
    else if lead < 0xE0 then
      match s with
      | b :: s => do
        let b ← bits? b
        let c ← scalar? 0x80 ((lead - 0xC0) * 64 + b)
        (decode? s).map (c :: ·)
      | _ => none
    else if lead < 0xF0 then
      match s with
      | b :: c :: s => do
        let b ← bits? b
        let c ← bits? c
        let d ← scalar? 0x800 (((lead - 0xE0) * 64 + b) * 64 + c)
        (decode? s).map (d :: ·)
      | _ => none
    else if lead < 0xF8 then
      match s with
      | b :: c :: d :: s => do
        let b ← bits? b
        let c ← bits? c
        let d ← bits? d
        let e ← scalar? 0x10000 ((((lead - 0xF0) * 64 + b) * 64 + c) * 64 + d)
        (decode? s).map (e :: ·)
      | _ => none
    else none

end Utf8
end BlockCanvas
