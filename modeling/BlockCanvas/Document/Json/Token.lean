import BlockCanvas.Number.Numeral
import BlockCanvas.Text.Utf8

/-!
# Tokens of JSON texts

A JSON text as the list of its tokens.  The list ends early at the first place that no token can
be read from; its last token then says what is wrong there.  White space leaves no trace, so texts
that differ in white space between tokens have one token list.
-/

namespace BlockCanvas
namespace Json

/-- Why a text is not a JSON document: it ends too early, or something in it is wrong. -/
inductive Flaw where
  | cutShort
  | malformed
deriving DecidableEq

/-- What a string literal is made of: characters, and escapes that name half of a surrogate
pair. -/
inductive Piece where
  | char (c : Char)
  | surrogate (unit : Nat)
deriving DecidableEq

/-- A string literal as far as it can be read, with the flaw at which it breaks off. -/
structure Literal where
  pieces : List Piece
  flaw : Option Flaw
deriving DecidableEq

inductive Token where
  | openObject | closeObject | openArray | closeArray | comma | colon
  | null
  | bool (b : Bool)
  | number (n : Numeral)
  | string (s : Literal)
  /-- A number at the end of the text that lacks a digit. -/
  | cutNumber
  /-- Something that is no token. -/
  | garbled (f : Flaw)
deriving DecidableEq

/-! ### String literals -/

/-- The literal of a text. -/
def Literal.ofText (s : Text) : Literal := ⟨s.map .char, none⟩

/-- The text of a literal: surrogates have to come in pairs.  The first thing that is wrong with it
counts. -/
def Literal.textOf (flaw : Option Flaw) : List Piece → Except Flaw Text
  | [] =>
    match flaw with
    | none => .ok []
    | some f => .error f
  | .char c :: rest => (textOf flaw rest).map (c :: ·)
  | .surrogate high :: .surrogate low :: rest =>
    if high < 0xDC00 ∧ 0xDC00 ≤ low then
      (textOf flaw rest).map
        (Char.ofNat (0x10000 + (high - 0xD800) * 0x400 + (low - 0xDC00)) :: ·)
    else .error .malformed
  | [.surrogate high] =>
    if high < 0xDC00 ∧ flaw = some .cutShort then .error .cutShort else .error .malformed
  | .surrogate _ :: .char _ :: _ => .error .malformed

/-- The text of a literal. -/
def Literal.text (s : Literal) : Except Flaw Text := textOf s.flaw s.pieces

/-- The value of a hexadecimal digit. -/
def hexDigit? (c : Char) : Option Nat :=
  match Text.digitValue? c with
  | some d => if d < 16 then some d else none
  | none => none

/-- The piece that an escape of four hexadecimal digits stands for. -/
def hexEscape? (a b c d : Char) : Option Piece := do
  let a ← hexDigit? a
  let b ← hexDigit? b
  let c ← hexDigit? c
  let d ← hexDigit? d
  let unit := ((a * 16 + b) * 16 + c) * 16 + d
  return if 0xD800 ≤ unit ∧ unit < 0xE000 then .surrogate unit else .char (Char.ofNat unit)

/-- The character that a one-letter escape stands for. -/
def escaped? : Char → Option Char
  | '"' => some '"'
  | '\\' => some '\\'
  | '/' => some '/'
  | 'b' => some '\x08'
  | 'f' => some '\x0c'
  | 'n' => some '\n'
  | 'r' => some '\r'
  | 't' => some '\t'
  | _ => none

/-- The flaw of an escape whose digits cannot be read: it is cut short if fewer than four bytes are
left. -/
def hexFlaw (s : Text) : Flaw := if Utf8.size (s.take 4) < 4 then .cutShort else .malformed

/-- A literal with one more piece at its start. -/
def Literal.push (p : Piece) (s : Literal × Text) : Literal × Text :=
  ({ s.1 with pieces := p :: s.1.pieces }, s.2)

/-- A literal that breaks off at once. -/
def Literal.broken (f : Flaw) : Literal × Text := (⟨[], some f⟩, [])

/-- The string literal after an opening quote, and the text after its closing quote. -/
def scanString : Text → Literal × Text
  | [] => Literal.broken .cutShort
  | '"' :: s => (⟨[], none⟩, s)
  | ['\\'] => Literal.broken .cutShort
  | '\\' :: 'u' :: a :: b :: c :: d :: s =>
    match hexEscape? a b c d with
    | some p => Literal.push p (scanString s)
    | none => Literal.broken (hexFlaw (a :: b :: c :: d :: s))
  | '\\' :: e :: s =>
    match escaped? e with
    | some c => Literal.push (.char c) (scanString s)
    | none => Literal.broken (if e = 'u' then hexFlaw s else .malformed)
  | c :: s =>
    if c.toNat < 0x20 then Literal.broken .malformed else Literal.push (.char c) (scanString s)

theorem scanString_length (s : Text) : (scanString s).2.length ≤ s.length := by
  fun_induction scanString s <;> simp_all [Literal.broken, Literal.push] <;> omega

/-! ### Numbers -/

/-- What is read where a digit is due and none follows. -/
def digitDue (s : Text) : Token := if s = [] then .cutNumber else .garbled .malformed

/-- The exponent at the head of a text, if any, for a number that is read up to it. -/
def scanExponent (negative : Bool) (whole : Text) (fraction : Option Text) (s : Text) :
    Token × Text :=
  match s with
  | c :: after =>
    if c = 'e' ∨ c = 'E' then
      let (below, after) := Numeral.takeSign after
      let (digits, rest) := Text.takeDigits after
      match digits with
      | [] => (digitDue rest, [])
      | digits => (.number ⟨negative, whole, fraction, some (below, digits)⟩, rest)
    else (.number ⟨negative, whole, fraction, none⟩, s)
  | [] => (.number ⟨negative, whole, fraction, none⟩, s)

/-- The fraction and the exponent at the head of a text, for a number that is read up to them. -/
def scanFraction (negative : Bool) (whole s : Text) : Token × Text :=
  match s with
  | '.' :: after =>
    let (digits, rest) := Text.takeDigits after
    match digits with
    | [] => (digitDue rest, [])
    | digits => scanExponent negative whole (some digits) rest
  | _ => scanExponent negative whole none s

/-- The number at the head of a text, after its sign; only a zero starts with a zero. -/
def scanDigits (negative : Bool) (s : Text) : Token × Text :=
  let (digits, rest) := Text.takeDigits s
  match digits with
  | [] => (digitDue rest, [])
  | '0' :: _ :: _ => (.garbled .malformed, [])
  | digits => scanFraction negative digits rest

theorem dropWhile_length (p : Char → Bool) (s : Text) : (s.dropWhile p).length ≤ s.length :=
  (List.dropWhile_suffix p).length_le

theorem scanExponent_length (negative : Bool) (whole : Text) (fraction : Option Text) (s : Text) :
    (scanExponent negative whole fraction s).2.length ≤ s.length := by
  unfold scanExponent
  split
  · next c after =>
    have h : (Numeral.takeSign after).2.length ≤ after.length := by
      unfold Numeral.takeSign
      split <;> simp
    have := dropWhile_length Char.isDigit (Numeral.takeSign after).2
    simp only [Text.takeDigits]
    split
    · split
      · simp
      · simp only [List.length_cons]; omega
    · simp
  · simp

theorem scanFraction_length (negative : Bool) (whole s : Text) :
    (scanFraction negative whole s).2.length ≤ s.length := by
  unfold scanFraction
  split
  · next after =>
    simp only [Text.takeDigits]
    split
    · simp
    · have := scanExponent_length negative whole (some (after.takeWhile Char.isDigit))
        (after.dropWhile Char.isDigit)
      have := dropWhile_length Char.isDigit after
      simp only [List.length_cons]
      omega
  · exact scanExponent_length ..

theorem scanDigits_length (negative : Bool) (s : Text) :
    (scanDigits negative s).2.length ≤ s.length := by
  unfold scanDigits
  simp only [Text.takeDigits]
  split
  · simp
  · simp
  · have := scanFraction_length negative (s.takeWhile Char.isDigit) (s.dropWhile Char.isDigit)
    have := dropWhile_length Char.isDigit s
    omega

/-! ### Tokens -/

/-- The characters between tokens. -/
def isSpace (c : Char) : Bool := c == ' ' || c == '\n' || c == '\t' || c == '\r'

/-- The token of a word at the head of a text, and the text after it. -/
def scanWord (word : Text) (token : Token) (s : Text) : Token × Text :=
  match word.isPrefixOf? s with
  | some rest => (token, rest)
  | none => (.garbled (if s.isPrefixOf word then .cutShort else .malformed), [])

/-- The token at the head of a text that starts with neither a space nor a digit, by its first
character. -/
def scanOther (c : Char) (s : Text) : Token × Text :=
  match c with
  | '\x7b' => (.openObject, s)
  | '\x7d' => (.closeObject, s)
  | '[' => (.openArray, s)
  | ']' => (.closeArray, s)
  | ',' => (.comma, s)
  | ':' => (.colon, s)
  | '"' => let (literal, rest) := scanString s; (.string literal, rest)
  | '-' => scanDigits true s
  | 'n' => scanWord "ull".toList .null s
  | 't' => scanWord "rue".toList (.bool true) s
  | 'f' => scanWord "alse".toList (.bool false) s
  | _ => (.garbled .malformed, [])

/-- The token at the head of a text that starts with no space. -/
def scanToken (c : Char) (s : Text) : Token × Text :=
  if c.isDigit then scanDigits false (c :: s) else scanOther c s

theorem scanWord_length (word : Text) (token : Token) (s : Text) :
    (scanWord word token s).2.length ≤ s.length := by
  unfold scanWord
  split
  · next h => rw [Text.isPrefixOf?_append h]; simp
  · simp

theorem scanToken_length (c : Char) (s : Text) : (scanToken c s).2.length ≤ s.length := by
  unfold scanToken
  split
  · next h =>
    unfold scanDigits
    simp only [Text.takeDigits, List.takeWhile_cons, List.dropWhile_cons, h, ↓reduceIte]
    split
    · simp
    · simp
    · next ds _ =>
      have := scanFraction_length false (c :: s.takeWhile Char.isDigit) (s.dropWhile Char.isDigit)
      have := dropWhile_length Char.isDigit s
      omega
  · unfold scanOther
    split <;> first
      | exact Nat.le_refl _
      | exact scanString_length s
      | exact scanDigits_length true s
      | exact scanWord_length _ _ s
      | simp

/-- The tokens of a text. -/
def tokens : Text → List Token
  | [] => []
  | c :: s =>
    if isSpace c then tokens s
    else (scanToken c s).1 :: tokens (scanToken c s).2
termination_by s => s.length
decreasing_by
  · simp
  · have := scanToken_length c s
    simp only [List.length_cons]
    omega

end Json
end BlockCanvas
