import BlockCanvas.Proofs.Text.Places
import BlockCanvas.Proofs.Text.Utf8

/-!
# Slices

Places in a text as numbers of bytes, and the slices between two of them.  A slice can be taken
exactly if its bounds are in order, in range and between characters (`isSome_slice?_iff`), and it is
what stands there: `slice?_append`.  The places that searches give are the sizes of what stands
before them.
-/

namespace BlockCanvas
namespace Utf8

theorem encode_append (s t : Text) : encode (s ++ t) = encode s ++ encode t := List.flatMap_append

theorem size_append (s t : Text) : size (s ++ t) = size s + size t := by
  rw [size, encode_append, List.length_append]
  rfl

/-- The first byte of a character continues no other, and the bytes behind it continue it. -/
theorem encodeChar_eq_cons (c : Char) : ∃ lead rest, encodeChar c = lead :: rest ∧
    bits? lead = none ∧ ∀ byte ∈ rest, bits? byte ≠ none := by
  have hn := toNat_lt_of_char c
  have lead {n : Nat} (h : n < 256) (free : n < 0x80 ∨ 0xC0 ≤ n) :
      bits? (UInt8.ofNat n) = none := by
    rw [bits?, toNat_ofNat h, if_neg (by omega)]
  have trails (n place : Nat) : bits? (trail n place) ≠ none := by
    rw [bits?_trail]
    exact Option.some_ne_none _
  simp only [encodeChar]
  split
  case isTrue h => exact ⟨_, [], rfl, lead (by omega) (by omega), by simp⟩
  split
  case isTrue => exact ⟨_, _, rfl, lead (by omega) (by omega), by simp [trails]⟩
  split
  case isTrue => exact ⟨_, _, rfl, lead (by omega) (by omega), by simp [trails]⟩
  case isFalse => exact ⟨_, _, rfl, lead (by omega) (by omega), by simp [trails]⟩

theorem size_eq_zero_iff {s : Text} : size s = 0 ↔ s = [] := by
  cases s with
  | nil => simp [size, encode]
  | cons c s =>
    obtain ⟨lead, rest, form, -⟩ := encodeChar_eq_cons c
    simp [size, encode, form]

end Utf8

namespace Text

open Utf8 (size size_append)

variable {s a b : Text} {i first last : Nat}

/-! ### Places between characters -/

/-- The place is an end of the text, or that of a byte which continues no character. -/
def IsBoundary (s : Text) (i : Nat) : Prop :=
  i = 0 ∨ i = size s ∨ ∃ byte ∈ (Utf8.encode s)[i]?, Utf8.bits? byte = none

instance : Decidable (IsBoundary s i) := inferInstanceAs (Decidable (_ ∨ _ ∨ _))

/-- These places are the sizes of what stands before them. -/
theorem isBoundary_iff : IsBoundary s i ↔ ∃ a b, s = a ++ b ∧ size a = i := by
  constructor
  · intro h
    induction s generalizing i with
    | nil =>
      rcases h with rfl | rfl | ⟨byte, found, -⟩
      · exact ⟨[], [], rfl, rfl⟩
      · exact ⟨[], [], rfl, rfl⟩
      · cases found
    | cons c s ih =>
      rcases h with rfl | rfl | ⟨byte, found, free⟩
      · exact ⟨[], c :: s, rfl, rfl⟩
      · exact ⟨c :: s, [], (List.append_nil _).symm, rfl⟩
      obtain ⟨lead, rest, form, -, continues⟩ := Utf8.encodeChar_eq_cons c
      have width : size [c] = rest.length + 1 := by
        rw [size, Utf8.encode, List.flatMap_singleton, form, List.length_cons]
      rw [Utf8.encode, List.flatMap_cons, form] at found
      by_cases inside : i < size [c]
      · cases i with
        | zero => exact ⟨[], c :: s, rfl, rfl⟩
        | succ i =>
          rw [List.cons_append, List.getElem?_cons_succ, List.getElem?_append_left (by omega)]
            at found
          exact absurd free (continues byte (List.mem_of_getElem? found))
      · rw [List.getElem?_append_right (by rw [List.length_cons]; omega), List.length_cons, ← width]
          at found
        obtain ⟨a, b, rfl, before⟩ := ih (.inr (.inr ⟨byte, found, free⟩))
        refine ⟨c :: a, b, rfl, ?_⟩
        rw [← List.singleton_append, size_append, before]
        omega
  · rintro ⟨a, b, rfl, rfl⟩
    cases b with
    | nil => exact .inr (.inl (by rw [List.append_nil]))
    | cons c b =>
      obtain ⟨lead, rest, form, free, -⟩ := Utf8.encodeChar_eq_cons c
      refine .inr (.inr ⟨lead, ?_, free⟩)
      rw [size, Utf8.encode_append, List.getElem?_append_right (Nat.le_refl _), Nat.sub_self,
        Utf8.encode, List.flatMap_cons, form]
      rfl

/-! ### Slices -/

/-- What the bounds of a slice have to satisfy. -/
structure Bounds (s : Text) (first last : Nat) : Prop where
  ordered : first ≤ last
  inRange : last ≤ size s
  isBoundary_first : IsBoundary s first
  isBoundary_last : IsBoundary s last

instance : Decidable (Bounds s first last) :=
  decidable_of_iff (first ≤ last ∧ last ≤ size s ∧ IsBoundary s first ∧ IsBoundary s last)
    ⟨fun ⟨h1, h2, h3, h4⟩ => ⟨h1, h2, h3, h4⟩, fun ⟨h1, h2, h3, h4⟩ => ⟨h1, h2, h3, h4⟩⟩

/-- The text of the bytes from place `first` to before place `last`. -/
def slice? (s : Text) (first last : Nat) : Option Text :=
  if Bounds s first last then Utf8.decode? (((Utf8.encode s).take last).drop first) else none

theorem bounds_append (a t b : Text) : Bounds (a ++ t ++ b) (size a) (size (a ++ t)) where
  ordered := by
    rw [size_append]
    omega
  inRange := by
    rw [size_append (a ++ t)]
    omega
  isBoundary_first := isBoundary_iff.2 ⟨a, t ++ b, List.append_assoc .., rfl⟩
  isBoundary_last := isBoundary_iff.2 ⟨a ++ t, b, rfl, rfl⟩

theorem slice?_append (a t b : Text) : slice? (a ++ t ++ b) (size a) (size (a ++ t)) = some t := by
  rw [slice?, if_pos (bounds_append a t b), size, size, Utf8.encode_append (a ++ t), List.take_left,
    Utf8.encode_append, List.drop_left, Utf8.decode?_encode]

/-- Bounds between characters cut a text into three. -/
theorem Bounds.exists_append (h : Bounds s first last) :
    ∃ a t b, s = a ++ t ++ b ∧ size a = first ∧ size (a ++ t) = last := by
  obtain ⟨a, rest, rfl, rfl⟩ := isBoundary_iff.1 h.isBoundary_first
  obtain ⟨front, b, whole, rfl⟩ := isBoundary_iff.1 h.isBoundary_last
  rcases List.append_eq_append_iff.1 whole with ⟨t, rfl, rfl⟩ | ⟨t, rfl, rfl⟩
  · exact ⟨a, t, b, (List.append_assoc ..).symm, rfl, rfl⟩
  · -- the second place is no earlier than the first, so nothing stands between them
    have ordered := h.ordered
    rw [size_append] at ordered
    have empty : t = [] := Utf8.size_eq_zero_iff.1 (by omega)
    rw [empty, List.append_nil]
    exact ⟨front, [], rest, by rw [List.append_nil], rfl, by rw [List.append_nil]⟩

/-- A slice can be taken exactly if its bounds are in order, in range and between characters. -/
theorem isSome_slice?_iff : (slice? s first last).isSome ↔ Bounds s first last := by
  constructor
  · intro h
    by_contra bounds
    rw [slice?, if_neg bounds] at h
    cases h
  · intro h
    obtain ⟨a, t, b, rfl, rfl, rfl⟩ := h.exists_append
    rw [slice?_append]
    rfl

-- the second place is inside the letter
example : slice? "aé".toList 0 1 = some ['a'] ∧ slice? "aé".toList 1 2 = none := by decide

/-! ### The places that searches give -/

/-- The places where `sep` stands, which no keyword does at two that overlap. -/
def places (sep s : Text) : List Nat := (occurrences sep s).map fun p => size p.1

/-- The first place where `sep` stands. -/
def firstPlace? (sep s : Text) : Option Nat := (splitOnce sep s).map fun p => size p.1

/-- The last place where `sep` stands. -/
def lastPlace? (sep s : Text) : Option Nat := (splitLast sep s).map fun p => size p.1

/-- Every character with its place, where the text starts at place `i`. -/
def charPlaces : (i : Nat) → Text → List (Nat × Char)
  | _, [] => []
  | i, c :: s => (i, c) :: charPlaces (i + size [c]) s

/-- The place of the first character that satisfies `p`. -/
def placeWhere? (p : Char → Bool) (s : Text) : Option Nat :=
  ((charPlaces 0 s).find? fun place => p place.2).map (·.1)

/-- The place where the characters at the end that satisfy `p` start, if there are any. -/
def startOfEnd? (p : Char → Bool) (s : Text) : Option Nat :=
  ((charPlaces 0 s).reverse.takeWhile fun place => p place.2).getLast?.map (·.1)

theorem charPlaces_append (i : Nat) (s t : Text) :
    charPlaces i (s ++ t) = charPlaces i s ++ charPlaces (i + size s) t := by
  induction s generalizing i with
  | nil => rfl
  | cons c s ih =>
    have width : i + size [c] + size s = i + size (c :: s) := by
      rw [Nat.add_assoc, ← size_append, List.singleton_append]
    rw [List.cons_append, charPlaces, ih, width, charPlaces, List.cons_append]

theorem map_snd_charPlaces (i : Nat) (s : Text) : (charPlaces i s).map (·.2) = s := by
  induction s generalizing i with
  | nil => rfl
  | cons c s ih => rw [charPlaces, List.map_cons, ih]

theorem mem_of_mem_charPlaces {place : Nat × Char} (h : place ∈ charPlaces i s) : place.2 ∈ s := by
  rw [← map_snd_charPlaces i s]
  exact List.mem_map_of_mem h

/-- The first character that does not belong stands behind those that do. -/
theorem placeWhere?_not_getD (p : Char → Bool) (s : Text) :
    (placeWhere? (fun c => !p c) s).getD (size s) = size (s.takeWhile p) := by
  obtain ⟨whole, chars, stop⟩ := (span_eq_iff (p := p) (s := s)).1 rfl
  generalize s.takeWhile p = word at whole chars
  generalize s.dropWhile p = rest at whole stop
  subst whole
  have passed : (charPlaces 0 word).find? (fun place => !p place.2) = none := by
    simp only [List.find?_eq_none, Bool.not_eq_true', Bool.not_eq_false]
    exact fun place member => chars _ (mem_of_mem_charPlaces member)
  rw [placeWhere?, charPlaces_append, List.find?_append, passed, Option.none_or]
  cases rest with
  | nil => simp [charPlaces]
  | cons c rest =>
    have here : (!p c) = true := by simpa using stop c rfl
    simp [charPlaces, here]

theorem startOfEnd?_append {p : Char → Bool} (chars : ∀ c ∈ b, p c)
    (stop : ∀ c ∈ a.getLast?, ¬ p c) :
    startOfEnd? p (a ++ b) = if b = [] then none else some (size a) := by
  have behind : ∀ place ∈ (charPlaces (0 + size a) b).reverse, p place.2 = true :=
    fun place member => chars _ (mem_of_mem_charPlaces (List.mem_reverse.1 member))
  have before : (charPlaces 0 a).reverse.takeWhile (fun place => p place.2) = [] := by
    rcases List.eq_nil_or_concat a with rfl | ⟨front, c, rfl⟩
    · rfl
    · have here : ¬ p c := stop c (by simp)
      simp [charPlaces_append, charPlaces, here]
  rw [startOfEnd?, charPlaces_append, List.reverse_append, List.takeWhile_append_of_pos behind,
    before, List.append_nil, List.getLast?_reverse, Nat.zero_add]
  cases b <;> rfl

end Text
end BlockCanvas
