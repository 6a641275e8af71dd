/-!
# Text

A text is a list of characters.  This file holds the searches the rest of the library is written
in: `splitOnce` and `splitLast` cut at the first and at the last place where a text stands,
`occurrences` lists all such places, `splitAll` cuts at each of them from left to right, and
`replaceAll` puts another text there.  `lines` cuts a text at its line feeds.

The main statement is `splitOnce_append`: what a cut leaves is the text itself, in order.
-/

namespace BlockCanvas

/-- A sequence of Unicode scalar values. -/
abbrev Text := List Char

namespace Text

/-! ### Searching -/

/-- The text before and the text after the first place where `sep` stands. -/
def splitOnce (sep : Text) : Text → Option (Text × Text)
  | [] => if sep = [] then some ([], []) else none
  | c :: s =>
    match sep.isPrefixOf? (c :: s) with
    | some rest => some ([], rest)
    | none => (splitOnce sep s).map fun p => (c :: p.1, p.2)

/-- The text before and the text after the last place where `sep` stands. -/
def splitLast (sep : Text) : Text → Option (Text × Text)
  | [] => if sep = [] then some ([], []) else none
  | c :: s =>
    match splitLast sep s with
    | some p => some (c :: p.1, p.2)
    | none => (sep.isPrefixOf? (c :: s)).map fun rest => ([], rest)

/-- Whether `sub` stands anywhere in the text. -/
def contains (sub s : Text) : Bool := (splitOnce sub s).isSome

/-- Every place where `sep` stands, from left to right, with the text before and after it. -/
def occurrences (sep : Text) : Text → List (Text × Text)
  | [] => if sep = [] then [([], [])] else []
  | c :: s =>
    let later := (occurrences sep s).map fun p => (c :: p.1, p.2)
    match sep.isPrefixOf? (c :: s) with
    | some rest => ([], rest) :: later
    | none => later

/-- The text between two fixed ends, which may not share a character. -/
def between? (first last s : Text) : Option Text :=
  match first.isPrefixOf? s with
  | none => none
  | some rest => (last.reverse.isPrefixOf? rest.reverse).map List.reverse

/-! ### Cutting -/

theorem isPrefixOf?_append : ∀ {p s rest : Text}, p.isPrefixOf? s = some rest → s = p ++ rest
  | [], _, _, h => Option.some.inj h
  | _ :: _, [], _, h => nomatch h
  | a :: p, b :: s, rest, h => by
    change (if a == b then p.isPrefixOf? s else none) = some rest at h
    split at h
    · next hab => rw [eq_of_beq hab, isPrefixOf?_append h]; rfl
    · cases h

/-- A cut loses nothing: the two sides and the text between them make up the whole. -/
theorem splitOnce_append {sep : Text} :
    ∀ {s a b : Text}, splitOnce sep s = some (a, b) → s = a ++ sep ++ b
  | [], a, b, h => by
    simp only [splitOnce] at h
    split at h
    · next hs => subst hs; cases h; rfl
    · cases h
  | c :: s, a, b, h => by
    simp only [splitOnce] at h
    split at h
    · next hp => cases h; exact isPrefixOf?_append hp
    · obtain ⟨⟨a', b'⟩, hr, he⟩ := Option.map_eq_some_iff.1 h
      cases he
      simp [splitOnce_append hr]

theorem length_lt_of_splitOnce {sep s a b : Text} (hs : sep ≠ [])
    (h : splitOnce sep s = some (a, b)) : b.length < s.length := by
  have := List.length_pos_iff.2 hs
  rw [splitOnce_append h]
  simp only [List.length_append]
  omega

/-- The pieces between the places where `sep` stands, found from left to right without overlap. -/
def splitAll (sep s : Text) : List Text :=
  if _hs : sep = [] then [s] else
  match _h : splitOnce sep s with
  | none => [s]
  | some (piece, rest) => piece :: splitAll sep rest
termination_by s.length
decreasing_by exact length_lt_of_splitOnce _hs _h

/-- The text with `new` in every place where `old` stands. -/
def replaceAll (old new s : Text) : Text := new.intercalate (splitAll old s)

/-- The pieces between the characters `sep`. -/
def splitChar (sep : Char) : Text → List Text
  | [] => [[]]
  | c :: s =>
    if c = sep then [] :: splitChar sep s
    else match splitChar sep s with
      | [] => [[c]]
      | piece :: rest => (c :: piece) :: rest

end Text
end BlockCanvas
