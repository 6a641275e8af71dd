import BlockCanvas.Proofs.Document.Json.Token

/-!
# Texts that are read as tokens

A text that is read as tokens with nothing wrong in them is a text of these tokens:
`written_tokens`.  The scanners are taken in the order in which they call one another: parts of a
number, string literals, words, tokens.
-/

namespace BlockCanvas
namespace Json

/-- A token with nothing wrong in it. -/
def Token.Sound : Token → Prop
  | .string l => l.flaw = none
  | .cutNumber | .garbled _ => False
  | _ => True

/-! ### Numbers -/

theorem not_sound_digitDue (s : Text) : ¬(digitDue s).Sound := by
  unfold digitDue
  split <;> exact id

/-- No digit follows. -/
def EndsDigits (rest : Text) : Prop := ∀ c ∈ rest.head?, ¬c.isDigit

/-- A sign before the digits of an exponent is one of its spellings, and so is none. -/
theorem takeSign_spec (s : Text) :
    ∃ sign below rest, Numeral.takeSign s = (below, rest) ∧ s = sign ++ rest ∧
      ∀ {mark : Char} (digits : Text), mark = 'e' ∨ mark = 'E' →
        ExponentWrittenAs (some (below, digits)) (mark :: (sign ++ digits)) := by
  obtain ⟨below, sign, rest, taken, whole, signed⟩ := Numeral.takeSign_spec s
  refine ⟨sign, below, rest, taken, whole, fun _ isMark => ?_⟩
  cases signed with
  | bare => exact .bare isMark
  | plus => exact .signed isMark
  | minus => exact .signed isMark

section

variable {negative : Bool} {whole s : Text} {fraction : Option Text}

theorem scanExponent_sound (ends : EndsDigits s)
    (sound : (scanExponent negative whole fraction s).1.Sound) :
    ∃ exponent u rest, scanExponent negative whole fraction s =
        (.number ⟨negative, whole, fraction, exponent⟩, rest) ∧ s = u ++ rest ∧
      ExponentWrittenAs exponent u ∧ (∀ mark ∈ exponent, Text.IsDigits mark.2) ∧
        EndsDigits rest := by
  cases s with
  | nil => exact ⟨none, [], [], rfl, rfl, .none, by simp, ends⟩
  | cons c after =>
    by_cases isMark : c = 'e' ∨ c = 'E'
    · simp only [scanExponent, if_pos isMark] at sound ⊢
      obtain ⟨sign, below, after, signed, rfl, written⟩ := takeSign_spec after
      rw [signed] at sound ⊢
      dsimp only at sound ⊢
      obtain ⟨digits, rest, taken, rfl, all, after⟩ := Text.takeDigits_spec after
      rw [taken] at sound ⊢
      dsimp only at sound ⊢
      cases digits with
      | nil => exact absurd sound (not_sound_digitDue _)
      | cons d digits =>
        refine ⟨some (below, d :: digits), _, rest, rfl, ?_, written (d :: digits) isMark, ?_,
          after⟩
        · simp only [List.cons_append, List.append_assoc]
        · rintro _ ⟨⟩
          exact ⟨by simp, all⟩
    · simp only [scanExponent, if_neg isMark]
      exact ⟨none, [], c :: after, rfl, rfl, .none, by simp, ends⟩

theorem scanFraction_sound (ends : EndsDigits s)
    (sound : (scanFraction negative whole s).1.Sound) :
    ∃ fraction exponent u rest, scanFraction negative whole s =
        (.number ⟨negative, whole, fraction, exponent⟩, rest) ∧
      s = fractionText fraction ++ (u ++ rest) ∧ ExponentWrittenAs exponent u ∧
        (∀ digits ∈ fraction, Text.IsDigits digits) ∧
          (∀ mark ∈ exponent, Text.IsDigits mark.2) ∧ EndsDigits rest := by
  rw [scanFraction.eq_def] at sound ⊢
  split at sound
  · next after =>
    obtain ⟨digits, rest, taken, rfl, all, after⟩ := Text.takeDigits_spec after
    rw [taken] at sound ⊢
    dsimp only at sound ⊢
    cases digits with
    | nil => exact absurd sound (not_sound_digitDue _)
    | cons d digits =>
      obtain ⟨exponent, u, rest, scan, rfl, written, marks, ends⟩ :=
        scanExponent_sound after sound
      refine ⟨some (d :: digits), exponent, u, rest, scan, rfl, written, ?_, marks, ends⟩
      rintro _ ⟨⟩
      exact ⟨by simp, all⟩
  · obtain ⟨exponent, u, rest, scan, split, written, marks, ends⟩ := scanExponent_sound ends sound
    exact ⟨none, exponent, u, rest, scan, split, written, by simp, marks, ends⟩

theorem scanDigits_sound (sound : (scanDigits negative s).1.Sound) :
    ∃ n u rest, scanDigits negative s = (.number n, rest) ∧ s = u ++ rest ∧
      NumberWrittenAs n (Numeral.signText negative ++ u) ∧ EndsDigits rest := by
  obtain ⟨digits, after, taken, rfl, all, ends⟩ := Text.takeDigits_spec s
  rw [scanDigits.eq_def, taken] at sound ⊢
  dsimp only at sound ⊢
  split at sound
  · exact absurd sound (not_sound_digitDue _)
  · exact sound.elim
  · next none leading =>
    obtain ⟨fraction, exponent, u, rest, scan, rfl, written, places, marks, ends⟩ :=
      scanFraction_sound ends sound
    refine ⟨_, _, rest, scan, ?_, ⟨⟨⟨none, all⟩, ?_, places, marks⟩, u, written, rfl⟩, ends⟩
    · simp only [List.append_assoc]
    · by_cases zero : digits.head? = some '0'
      · obtain ⟨tail, rfl⟩ := List.head?_eq_some_iff.1 zero
        cases tail with
        | nil => exact .inl rfl
        | cons d tail => exact absurd rfl (leading d tail)
      · exact .inr zero

end

/-! ### String literals -/

theorem scanString_sound (s : Text) (sound : (scanString s).1.flaw = none) :
    ∃ body, s = body ++ '"' :: (scanString s).2 ∧
      PiecesWrittenAs (scanString s).1.pieces body := by
  fun_induction scanString s with
  | case2 s => exact ⟨[], rfl, .nil⟩
  | case4 a b c d s p known ih =>
    obtain ⟨body, split, pieces⟩ := ih sound
    refine ⟨'\\' :: 'u' :: a :: b :: c :: d :: body, ?_, .cons (.hex known) pieces⟩
    simp only [Literal.push, List.cons_append, ← split]
  | case6 e s _ c known ih =>
    obtain ⟨body, split, pieces⟩ := ih sound
    refine ⟨'\\' :: e :: body, ?_, .cons (.letter known) pieces⟩
    simp only [Literal.push, List.cons_append, ← split]
  | case9 c s quote alone _ escape visible ih =>
    obtain ⟨body, split, pieces⟩ := ih sound
    have plain : c ≠ '\\' := by
      rintro rfl
      cases s with
      | nil => exact alone rfl rfl
      | cons e s => exact escape e s rfl rfl
    refine ⟨c :: body, ?_, .cons (.plain (Nat.not_lt.1 visible) quote plain) pieces⟩
    simp only [Literal.push, List.cons_append, ← split]
  | _ => cases sound

/-! ### Tokens -/

theorem scanWord_sound {word s : Text} {token : Token} (sound : (scanWord word token s).1.Sound) :
    ∃ rest, scanWord word token s = (token, rest) ∧ s = word ++ rest := by
  unfold scanWord at sound ⊢
  split at sound
  · next rest found => exact ⟨rest, rfl, Text.isPrefixOf?_append found⟩
  · exact sound.elim

theorem scanToken_sound {c : Char} {s : Text} (sound : (scanToken c s).1.Sound) :
    ∃ t u rest, scanToken c s = (t, rest) ∧ c :: s = u ++ rest ∧ t.WrittenAs u ∧
      ∀ n, t = .number n → EndsDigits rest := by
  by_cases digit : c.isDigit
  · rw [scanToken, if_pos digit] at sound ⊢
    obtain ⟨n, u, rest, scan, split, written, ends⟩ := scanDigits_sound sound
    exact ⟨.number n, u, rest, scan, split, written, fun _ _ => ends⟩
  · rw [scanToken, if_neg digit] at sound ⊢
    unfold scanOther at sound ⊢
    split at sound
    case h_7 =>
      obtain ⟨body, split, pieces⟩ := scanString_sound s sound
      refine ⟨_, '"' :: (body ++ ['"']), _, rfl, ?_, ⟨sound, body, pieces, rfl⟩, by simp⟩
      rw [List.cons_append, List.append_assoc, List.singleton_append, ← split]
    case h_8 =>
      obtain ⟨n, u, rest, scan, rfl, written, ends⟩ := scanDigits_sound sound
      exact ⟨.number n, '-' :: u, rest, scan, rfl, written, fun _ _ => ends⟩
    case h_9 =>
      obtain ⟨rest, scan, rfl⟩ := scanWord_sound sound
      exact ⟨.null, _, rest, scan, rfl, rfl, by simp⟩
    case h_10 =>
      obtain ⟨rest, scan, rfl⟩ := scanWord_sound sound
      exact ⟨.bool true, _, rest, scan, rfl, rfl, by simp⟩
    case h_11 =>
      obtain ⟨rest, scan, rfl⟩ := scanWord_sound sound
      exact ⟨.bool false, _, rest, scan, rfl, rfl, by simp⟩
    case h_12 => exact sound.elim
    all_goals exact ⟨_, [_], s, rfl, rfl, rfl, by simp⟩

/-- What could go on a number is no token. -/
theorem EndsDigits.endsNumber {rest : Text} (h : EndsDigits rest)
    (sound : ∀ t ∈ tokens rest, t.Sound) : EndsNumber rest := by
  intro c hc
  refine ⟨h c hc, ?_⟩
  obtain ⟨s, rfl⟩ := List.head?_eq_some_iff.1 hc
  refine ⟨?_, ?_, ?_⟩ <;>
  · rintro rfl
    rw [tokens_cons (by decide) rfl] at sound
    exact sound _ List.mem_cons_self

theorem isBlank_nil : IsBlank [] := by
  intro c hc
  cases hc

theorem Written.space {ts : List Token} {c : Char} {s : Text} (h : Written ts s)
    (space : isSpace c) : Written ts (c :: s) := by
  have blank {b : Text} (hb : IsBlank b) : IsBlank (c :: b) := by
    intro d hd
    rcases List.mem_cons.1 hd with rfl | hd
    · exact space
    · exact hb d hd
  cases h with
  | nil hb => exact .nil (blank hb)
  | cons hb token ends rest => exact .cons (blank hb) token ends rest

/-- A text whose tokens have nothing wrong in them is a text of these tokens. -/
theorem written_tokens (s : Text) (sound : ∀ t ∈ tokens s, t.Sound) : Written (tokens s) s := by
  fun_induction tokens s with
  | case1 => exact .nil isBlank_nil
  | case2 c s space ih => exact (ih sound).space space
  | case3 c s visible ih =>
    have later := fun t ht => sound t (List.mem_cons_of_mem _ ht)
    have after := ih later
    obtain ⟨t, u, rest, scan, split, written, ends⟩ := scanToken_sound (sound _ List.mem_cons_self)
    rw [scan] at later after ⊢
    rw [split, ← List.nil_append (u ++ _)]
    exact .cons isBlank_nil written (fun n e => (ends n e).endsNumber later) after

end Json
end BlockCanvas
