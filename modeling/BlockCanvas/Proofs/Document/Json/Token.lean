import BlockCanvas.Document.Json.Print
import BlockCanvas.Proofs.Number.Grammar

/-!
# Texts of tokens

Which texts a token has (`Token.WrittenAs`), and which texts a list of tokens has: theirs, with any
white space around them (`Written`).  Every such text is read as the tokens, `tokens_written`.  What
`print` writes for a string, a word or a number is one of the texts that it has.
-/

namespace BlockCanvas
namespace Json

/-! ### Texts -/

/-- The texts of a piece of a string literal.  A character stands for itself, if it is neither a
quote nor a backslash nor a control character, or is escaped. -/
inductive Piece.WrittenAs : Piece → Text → Prop
  | plain {c : Char} : 0x20 ≤ c.toNat → c ≠ '"' → c ≠ '\\' → WrittenAs (.char c) [c]
  | letter {e c : Char} : escaped? e = some c → WrittenAs (.char c) ['\\', e]
  | hex {a b c d : Char} {p : Piece} :
    hexEscape? a b c d = some p → WrittenAs p ['\\', 'u', a, b, c, d]

/-- The texts of pieces, one after the other. -/
inductive PiecesWrittenAs : List Piece → Text → Prop
  | nil : PiecesWrittenAs [] []
  | cons {p : Piece} {ps : List Piece} {u s : Text} :
    p.WrittenAs u → PiecesWrittenAs ps s → PiecesWrittenAs (p :: ps) (u ++ s)

/-- The texts of a string literal that is whole. -/
def Literal.WrittenAs (l : Literal) (s : Text) : Prop :=
  l.flaw = none ∧ ∃ body, PiecesWrittenAs l.pieces body ∧ s = '"' :: (body ++ ['"'])

/-- The texts of an exponent: the mark may be a capital, and a plus may be left out. -/
inductive ExponentWrittenAs : Option (Bool × Text) → Text → Prop
  | none : ExponentWrittenAs none []
  | bare {mark : Char} {digits : Text} : mark = 'e' ∨ mark = 'E' →
    ExponentWrittenAs (some (false, digits)) (mark :: digits)
  | signed {mark : Char} {below : Bool} {digits : Text} : mark = 'e' ∨ mark = 'E' →
    ExponentWrittenAs (some (below, digits)) (mark :: (if below then '-' else '+') :: digits)

def fractionText : Option Text → Text
  | some digits => '.' :: digits
  | none => []

/-- The texts of a number. -/
def NumberWrittenAs (n : Numeral) (s : Text) : Prop :=
  n.Strict ∧ ∃ exponent, ExponentWrittenAs n.exponent exponent ∧
    s = Numeral.signText n.negative ++ (n.whole ++ (fractionText n.fraction ++ exponent))

/-- The texts of a token. -/
def Token.WrittenAs : Token → Text → Prop
  | .openObject, s => s = ['\x7b']
  | .closeObject, s => s = ['\x7d']
  | .openArray, s => s = ['[']
  | .closeArray, s => s = [']']
  | .comma, s => s = [',']
  | .colon, s => s = [':']
  | .null, s => s = "null".toList
  | .bool b, s => s = boolText b
  | .number n, s => NumberWrittenAs n s
  | .string l, s => l.WrittenAs s
  | .cutNumber, _ | .garbled _, _ => False

/-- Where a number ends: no digit, point or exponent mark follows. -/
def EndsNumber (rest : Text) : Prop :=
  ∀ c ∈ rest.head?, ¬c.isDigit ∧ c ≠ '.' ∧ c ≠ 'e' ∧ c ≠ 'E'

/-- Only a number has to end before what follows it. -/
def Token.EndsBefore (t : Token) (rest : Text) : Prop := ∀ n, t = .number n → EndsNumber rest

def IsBlank (s : Text) : Prop := ∀ c ∈ s, isSpace c

/-- The texts of a list of tokens: theirs, with white space before, between and after them. -/
inductive Written : List Token → Text → Prop
  | nil {blank : Text} : IsBlank blank → Written [] blank
  | cons {blank u s : Text} {t : Token} {ts : List Token} : IsBlank blank → t.WrittenAs u →
    t.EndsBefore s → Written ts s → Written (t :: ts) (blank ++ (u ++ s))

/-! ### String literals -/

theorem scanString_piece {p : Piece} {u : Text} (h : p.WrittenAs u) (rest : Text) :
    scanString (u ++ rest) = Literal.push p (scanString rest) := by
  cases h with
  | plain visible quote backslash => simp [scanString, backslash, Nat.not_lt.2 visible]
  | @letter e c known =>
    have notHex : e ≠ 'u' := by
      rintro rfl
      cases known
    simp [scanString, notHex, known]
  | hex known => simp [scanString, known]

theorem scanString_pieces {ps : List Piece} {body : Text} (h : PiecesWrittenAs ps body)
    (rest : Text) : scanString (body ++ '"' :: rest) = (⟨ps, none⟩, rest) := by
  induction h with
  | nil => rfl
  | cons piece _ ih =>
    rw [List.append_assoc, scanString_piece piece, ih]
    rfl

/-- Every control character is read back from its escape. -/
theorem hexEscape?_hex4 : ∀ n < 0x20,
    (match hex4 n with
      | [a, b, c, d] => hexEscape? a b c d
      | _ => none) = some (.char (Char.ofNat n)) := by
  decide

theorem writtenAs_escapeChar (c : Char) : (Piece.char c).WrittenAs (escapeChar c) := by
  unfold escapeChar
  split
  case h_8 quote backslash _ _ _ _ _ =>
    split
    · next control =>
      have read := hexEscape?_hex4 c.toNat control
      rw [Char.ofNat_toNat] at read
      split at read
      · next a b d e digits =>
        rw [digits]
        exact .hex read
      · cases read
    · next plain => exact .plain (Nat.not_lt.1 plain) quote backslash
  all_goals exact .letter rfl

theorem writtenAs_print (s : Text) : (Literal.ofText s).WrittenAs (Literal.ofText s).print := by
  refine ⟨rfl, (Literal.ofText s).pieces.flatMap Piece.print, ?_, rfl⟩
  show PiecesWrittenAs (s.map .char) ((s.map Piece.char).flatMap Piece.print)
  induction s with
  | nil => exact .nil
  | cons c s ih => exact .cons (writtenAs_escapeChar c) ih

/-! ### Numbers -/

/-- Digits have no sign. -/
theorem takeSign_digits {digits : Text} (h : Text.IsDigits digits) (rest : Text) :
    Numeral.takeSign (digits ++ rest) = (false, digits ++ rest) :=
  Numeral.takeSign_append .bare (Numeral.not_sign_of_isDigits h rest)

theorem scanExponent_written {negative : Bool} {whole : Text} {fraction : Option Text}
    {exponent : Option (Bool × Text)} {s rest : Text} (written : ExponentWrittenAs exponent s)
    (ends : EndsNumber rest) (h : ∀ mark ∈ exponent, Text.IsDigits mark.2) :
    scanExponent negative whole fraction (s ++ rest) =
      (.number ⟨negative, whole, fraction, exponent⟩, rest) := by
  have taken {digits : Text} (all : Text.IsDigits digits) :
      Text.takeDigits (digits ++ rest) = (digits, rest) :=
    Text.takeDigits_append all.isDigit fun c hc => (ends c hc).1
  cases written with
  | none =>
    cases rest with
    | nil => rfl
    | cons c rest =>
      obtain ⟨-, -, small, capital⟩ := ends c rfl
      simp [scanExponent, small, capital]
  | @bare mark digits isMark =>
    have all := h _ rfl
    have ne : digits ≠ [] := all.ne_nil
    simp only [List.cons_append, scanExponent, if_pos isMark, takeSign_digits all, taken all]
  | @signed mark below digits isMark =>
    have all := h _ rfl
    have ne : digits ≠ [] := all.ne_nil
    have sign : Numeral.takeSign ((if below then '-' else '+') :: (digits ++ rest)) =
        (below, digits ++ rest) := by
      cases below <;> rfl
    simp only [List.cons_append, scanExponent, if_pos isMark, sign, taken all]

theorem head?_exponent_append {exponent : Option (Bool × Text)} {s rest : Text}
    (written : ExponentWrittenAs exponent s) (ends : EndsNumber rest) :
    ∀ c ∈ (s ++ rest).head?, ¬c.isDigit ∧ c ≠ '.' := by
  intro c hc
  cases written with
  | none => exact ⟨(ends c hc).1, (ends c hc).2.1⟩
  | bare isMark =>
    cases hc
    rcases isMark with rfl | rfl <;> decide
  | signed isMark =>
    cases hc
    rcases isMark with rfl | rfl <;> decide

theorem scanFraction_written {n : Numeral} (strict : n.Strict) {s rest : Text}
    (written : ExponentWrittenAs n.exponent s) (ends : EndsNumber rest) :
    scanFraction n.negative n.whole (fractionText n.fraction ++ (s ++ rest)) =
      (.number n, rest) := by
  obtain ⟨negative, whole, fraction, exponent⟩ := n
  have after : ∀ c ∈ (s ++ rest).head?, ¬c.isDigit ∧ c ≠ '.' := head?_exponent_append written ends
  cases fraction with
  | none =>
    rw [fractionText, List.nil_append, scanFraction.eq_def]
    split
    · next digits e =>
      rw [e] at after
      exact absurd rfl (after '.' rfl).2
    · exact scanExponent_written written ends strict.exponent
  | some digits =>
    have all := strict.fraction digits rfl
    have taken : Text.takeDigits (digits ++ (s ++ rest)) = (digits, s ++ rest) :=
      Text.takeDigits_append all.isDigit fun c hc => (after c hc).1
    have ne := all.ne_nil
    simp only [fractionText, List.cons_append, scanFraction, taken]
    exact scanExponent_written written ends strict.exponent

theorem scanDigits_written {n : Numeral} (strict : n.Strict) {s rest : Text}
    (written : ExponentWrittenAs n.exponent s) (ends : EndsNumber rest) :
    scanDigits n.negative (n.whole ++ (fractionText n.fraction ++ (s ++ rest))) =
      (.number n, rest) := by
  have after : ∀ c ∈ (fractionText n.fraction ++ (s ++ rest)).head?, ¬c.isDigit := by
    intro c hc
    cases h : n.fraction with
    | none =>
      rw [h] at hc
      exact (head?_exponent_append written ends c hc).1
    | some digits =>
      rw [h] at hc
      cases hc
      decide
  have taken := Text.takeDigits_append strict.whole.isDigit after
  have ne := strict.whole.ne_nil
  have leading := strict.leading
  simp only [scanDigits, taken]
  split
  · contradiction
  · next c rest whole =>
    rw [whole] at leading
    simp at leading
  · exact scanFraction_written strict written ends

theorem numberWrittenAs_text {n : Numeral} (strict : n.Strict) : NumberWrittenAs n n.text := by
  refine ⟨strict, ?_⟩
  obtain ⟨negative, whole, fraction, exponent⟩ := n
  cases exponent with
  | none =>
    refine ⟨[], .none, ?_⟩
    cases fraction <;> simp [Numeral.text, fractionText]
  | some mark =>
    refine ⟨_, .signed (.inl rfl), ?_⟩
    cases fraction <;> simp [Numeral.text, fractionText]

/-! ### Tokens -/

theorem tokens_cons {c : Char} {s rest : Text} {t : Token} (visible : isSpace c = false)
    (scan : scanToken c s = (t, rest)) : tokens (c :: s) = t :: tokens rest := by
  rw [tokens, if_neg (by simp [visible]), scan]

theorem isSpace_of_isDigit {c : Char} (digit : c.isDigit) : isSpace c = false := by
  rw [isSpace, Bool.eq_false_iff]
  intro space
  simp only [Bool.or_eq_true, beq_iff_eq] at space
  rcases space with ((rfl | rfl) | rfl) | rfl <;> cases digit

theorem tokens_number {n : Numeral} {u rest : Text} (written : NumberWrittenAs n u)
    (ends : EndsNumber rest) : tokens (u ++ rest) = .number n :: tokens rest := by
  obtain ⟨strict, exponent, exponentWritten, rfl⟩ := written
  have scan := scanDigits_written strict exponentWritten ends
  simp only [List.append_assoc]
  cases sign : n.negative with
  | true =>
    rw [sign] at scan
    refine tokens_cons (by decide) ?_
    exact scan
  | false =>
    rw [sign] at scan
    obtain ⟨c, digits, whole⟩ := List.exists_cons_of_ne_nil strict.whole.ne_nil
    have digit : c.isDigit := strict.whole.isDigit c (by simp [whole])
    rw [whole, List.cons_append] at scan ⊢
    apply tokens_cons (isSpace_of_isDigit digit)
    rw [scanToken, if_pos digit]
    exact scan

theorem tokens_null (rest : Text) : tokens ("null".toList ++ rest) = .null :: tokens rest :=
  tokens_cons (by decide) rfl

theorem tokens_bool (b : Bool) (rest : Text) :
    tokens (boolText b ++ rest) = .bool b :: tokens rest := by
  cases b <;> exact tokens_cons (by decide) rfl

theorem tokens_string {l : Literal} {u : Text} (written : l.WrittenAs u) (rest : Text) :
    tokens (u ++ rest) = .string l :: tokens rest := by
  obtain ⟨whole, body, pieces, rfl⟩ := written
  rw [List.cons_append, List.append_assoc]
  refine tokens_cons (by decide) ?_
  show (Token.string _, _) = _
  rw [List.singleton_append, scanString_pieces pieces, ← whole]

/-- One mark is one token. -/
theorem tokens_mark {c : Char} {t : Token} (visible : isSpace c = false)
    (scan : ∀ s, scanToken c s = (t, s)) (s : Text) : tokens (c :: s) = t :: tokens s :=
  tokens_cons visible (scan s)

theorem tokens_comma (s : Text) : tokens (',' :: s) = .comma :: tokens s :=
  tokens_mark (by decide) (fun _ => rfl) s

theorem tokens_colon (s : Text) : tokens (':' :: s) = .colon :: tokens s :=
  tokens_mark (by decide) (fun _ => rfl) s

theorem tokens_openArray (s : Text) : tokens ('[' :: s) = .openArray :: tokens s :=
  tokens_mark (by decide) (fun _ => rfl) s

theorem tokens_closeArray (s : Text) : tokens (']' :: s) = .closeArray :: tokens s :=
  tokens_mark (by decide) (fun _ => rfl) s

theorem tokens_openObject (s : Text) : tokens ('\x7b' :: s) = .openObject :: tokens s :=
  tokens_mark (by decide) (fun _ => rfl) s

theorem tokens_closeObject (s : Text) : tokens ('\x7d' :: s) = .closeObject :: tokens s :=
  tokens_mark (by decide) (fun _ => rfl) s

theorem tokens_blank {blank : Text} (h : IsBlank blank) (rest : Text) :
    tokens (blank ++ rest) = tokens rest := by
  induction blank with
  | nil => rfl
  | cons c blank ih =>
    rw [List.cons_append, tokens, if_pos (h c List.mem_cons_self),
      ih fun d hd => h d (List.mem_cons_of_mem c hd)]

theorem tokens_writtenAs {t : Token} {u rest : Text} (written : t.WrittenAs u)
    (ends : t.EndsBefore rest) : tokens (u ++ rest) = t :: tokens rest := by
  cases t with
  | openObject => rw [written]; exact tokens_openObject rest
  | closeObject => rw [written]; exact tokens_closeObject rest
  | openArray => rw [written]; exact tokens_openArray rest
  | closeArray => rw [written]; exact tokens_closeArray rest
  | comma => rw [written]; exact tokens_comma rest
  | colon => rw [written]; exact tokens_colon rest
  | null => rw [written]; exact tokens_null rest
  | bool b => rw [written]; exact tokens_bool b rest
  | number n => exact tokens_number written (ends n rfl)
  | string l => exact tokens_string written rest
  | cutNumber => exact written.elim
  | garbled f => exact written.elim

/-- A text of tokens is read as the tokens. -/
theorem tokens_written {ts : List Token} {s : Text} (h : Written ts s) : tokens s = ts := by
  induction h with
  | nil blank =>
    have none := tokens_blank blank []
    rwa [List.append_nil, tokens] at none
  | cons blank token ends _ ih => rw [tokens_blank blank, tokens_writtenAs token ends, ih]

end Json
end BlockCanvas
