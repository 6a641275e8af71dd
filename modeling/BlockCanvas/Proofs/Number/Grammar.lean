import Mathlib.Data.Nat.Digits.Defs
import BlockCanvas.Proofs.Number.Literal
import BlockCanvas.Proofs.Number.Numeral

/-!
# Texts of numbers

`Numeral.Spelled` says which texts a numeral has, and these are the ones that are read as it:
`scan?_eq_some_iff`.  `IsLiteral` says which texts are numbers: blank text, an infinity, a numeral,
and a whole number after a radix marker.  A plus between the marker and the digits is no part of
this grammar, but it is read too, and it is all that is read besides: `isSome_literal?_iff`.
-/

namespace BlockCanvas

open Text (IsDigits)

/-! ### Numerals -/

namespace Numeral

/-- The texts of a sign: a plus may be left out. -/
inductive SignSpelled : Bool → Text → Prop
  | bare : SignSpelled false []
  | plus : SignSpelled false ['+']
  | minus : SignSpelled true ['-']

/-- The texts of the places before an exponent: digits with an optional point and optional further
digits, or a point followed by digits. -/
inductive PlacesSpelled : Text → Option Text → Text → Prop
  | whole {digits : Text} : IsDigits digits → PlacesSpelled digits none digits
  | pointed {digits fraction : Text} : IsDigits digits → (∀ c ∈ fraction, c.isDigit) →
    PlacesSpelled digits (some fraction) (digits ++ '.' :: fraction)
  | fraction {digits : Text} : IsDigits digits → PlacesSpelled [] (some digits) ('.' :: digits)

/-- The texts of an exponent: a mark, an optional sign and at least one digit. -/
inductive ExponentSpelled : Option (Bool × Text) → Text → Prop
  | none : ExponentSpelled none []
  | marked {mark : Char} {below : Bool} {sign digits : Text} : mark = 'e' ∨ mark = 'E' →
    SignSpelled below sign → IsDigits digits →
    ExponentSpelled (some (below, digits)) (mark :: (sign ++ digits))

/-- The texts of a numeral. -/
def Spelled (n : Numeral) (s : Text) : Prop :=
  ∃ sign places exponent, s = sign ++ (places ++ exponent) ∧ SignSpelled n.negative sign ∧
    PlacesSpelled n.whole n.fraction places ∧ ExponentSpelled n.exponent exponent

/-! #### Signs -/

theorem takeSign_append {negative : Bool} {sign rest : Text} (signed : SignSpelled negative sign)
    (plain : ∀ c ∈ rest.head?, c ≠ '+' ∧ c ≠ '-') : takeSign (sign ++ rest) = (negative, rest) := by
  cases signed with
  | plus => rfl
  | minus => rfl
  | bare =>
    rw [List.nil_append, takeSign.eq_def]
    split
    · exact absurd rfl (plain '-' rfl).2
    · exact absurd rfl (plain '+' rfl).1
    · rfl

theorem takeSign_spec (s : Text) : ∃ negative sign rest, takeSign s = (negative, rest) ∧
    s = sign ++ rest ∧ SignSpelled negative sign := by
  rw [takeSign.eq_def]
  split
  · exact ⟨true, ['-'], _, rfl, rfl, .minus⟩
  · exact ⟨false, ['+'], _, rfl, rfl, .plus⟩
  · exact ⟨false, [], _, rfl, rfl, .bare⟩

/-- No sign stands at the start of digits. -/
theorem not_sign_of_isDigits {digits : Text} (all : IsDigits digits) (rest : Text) :
    ∀ c ∈ (digits ++ rest).head?, c ≠ '+' ∧ c ≠ '-' := by
  intro c hc
  rw [List.head?_append_of_ne_nil _ all.ne_nil] at hc
  have digit := all.isDigit c (List.mem_of_mem_head? hc)
  constructor
  all_goals
    rintro rfl
    cases digit

/-! #### Exponents -/

theorem exponent?_of_spelled {s : Text} {e : Option (Bool × Text)} (h : ExponentSpelled e s) :
    exponent? s = some e := by
  cases h with
  | none => rfl
  | @marked mark below sign digits isMark signed all =>
    have plain := not_sign_of_isDigits all []
    rw [List.append_nil] at plain
    rw [exponent?, if_pos isMark, takeSign_append signed plain]
    exact if_pos ⟨all.ne_nil, List.all_eq_true.2 all.isDigit⟩

theorem spelled_of_exponent? {s : Text} {e : Option (Bool × Text)} (h : exponent? s = some e) :
    ExponentSpelled e s := by
  cases s with
  | nil =>
    cases h
    exact .none
  | cons mark s =>
    obtain ⟨below, sign, digits, taken, rfl, signed⟩ := takeSign_spec s
    rw [exponent?, taken] at h
    dsimp only at h
    split at h
    · next isMark =>
      split at h
      · next all =>
        cases h
        exact .marked isMark signed ⟨all.1, List.all_eq_true.1 all.2⟩
      · cases h
    · cases h

/-- No digit and no point stands at the start of an exponent. -/
theorem ExponentSpelled.head? {s : Text} {e : Option (Bool × Text)} (h : ExponentSpelled e s) :
    ∀ c ∈ s.head?, ¬c.isDigit ∧ c ≠ '.' := by
  rintro c hc
  cases h with
  | none => cases hc
  | marked isMark =>
    cases hc
    rcases isMark with rfl | rfl <;> decide

/-! #### Places -/

/-- Digits or a point stand at the start of the places, and so no sign. -/
theorem PlacesSpelled.head? {whole places : Text} {fraction : Option Text}
    (h : PlacesSpelled whole fraction places) (rest : Text) :
    ∀ c ∈ (places ++ rest).head?, c ≠ '+' ∧ c ≠ '-' := by
  cases h with
  | whole all => exact not_sign_of_isDigits all rest
  | pointed all _ =>
    rw [List.append_assoc]
    exact not_sign_of_isDigits all _
  | fraction _ =>
    rintro c ⟨⟩
    decide

theorem take_of_placesSpelled {whole places rest : Text} {fraction : Option Text}
    (h : PlacesSpelled whole fraction places) (ends : ∀ c ∈ rest.head?, ¬c.isDigit ∧ c ≠ '.') :
    ∃ after, Text.takeDigits (places ++ rest) = (whole, after) ∧
      takeFraction after = (fraction, rest) ∧ ¬(whole = [] ∧ fraction.getD [] = []) := by
  have point (digits : Text) (all : ∀ c ∈ digits, c.isDigit) :
      takeFraction ('.' :: (digits ++ rest)) = (some digits, rest) := by
    rw [takeFraction, Text.takeDigits_append all fun c hc => (ends c hc).1]
  cases h with
  | whole all =>
    refine ⟨rest, Text.takeDigits_append all.isDigit fun c hc => (ends c hc).1, ?_,
      fun none => all.ne_nil none.1⟩
    rw [takeFraction.eq_def]
    split
    · exact absurd rfl (ends '.' rfl).2
    · rfl
  | @pointed _ digits all more =>
    refine ⟨'.' :: (digits ++ rest), ?_, point digits more, fun none => all.ne_nil none.1⟩
    rw [List.append_assoc]
    exact Text.takeDigits_append all.isDigit (by rintro c ⟨⟩; decide)
  | @fraction digits all =>
    exact ⟨'.' :: (digits ++ rest), rfl, point digits all.isDigit, fun none => all.ne_nil none.2⟩

theorem placesSpelled_of_take {s whole after rest : Text} {fraction : Option Text}
    (taken : Text.takeDigits s = (whole, after)) (part : takeFraction after = (fraction, rest))
    (some : ¬(whole = [] ∧ fraction.getD [] = [])) :
    ∃ places, s = places ++ rest ∧ PlacesSpelled whole fraction places := by
  obtain ⟨digits, more, taken', rfl, all, -⟩ := Text.takeDigits_spec s
  obtain ⟨rfl, rfl⟩ := Prod.mk.inj (taken'.symm.trans taken)
  rw [takeFraction.eq_def] at part
  split at part
  · next more =>
    obtain ⟨further, last, taken, rfl, all', -⟩ := Text.takeDigits_spec more
    rw [taken] at part
    cases part
    by_cases none : digits = []
    · subst none
      exact ⟨'.' :: further, rfl, .fraction ⟨fun h => some ⟨rfl, h⟩, all'⟩⟩
    · exact ⟨digits ++ '.' :: further, by simp, .pointed ⟨none, all⟩ all'⟩
  · cases part
    exact ⟨digits, rfl, .whole ⟨fun none => some ⟨none, rfl⟩, all⟩⟩

/-! #### Whole numerals -/

/-- A text is read as a numeral exactly if it is one of the texts of the numeral. -/
theorem scan?_eq_some_iff {s : Text} {n : Numeral} : scan? s = some n ↔ n.Spelled s := by
  obtain ⟨negative, whole, fraction, exponent⟩ := n
  constructor
  · intro h
    obtain ⟨negative', sign, rest, signed, rfl, spelled⟩ := takeSign_spec s
    cases digits : Text.takeDigits rest with
    | mk whole' after =>
    cases part : takeFraction after with
    | mk fraction' last =>
    simp only [scan?, signed, digits, part] at h
    split at h
    · cases h
    · next some =>
      obtain ⟨exponent', read, e⟩ := Option.map_eq_some_iff.1 h
      cases e
      obtain ⟨places, rfl, placed⟩ := placesSpelled_of_take digits part some
      exact ⟨sign, places, last, rfl, spelled, placed, spelled_of_exponent? read⟩
  · rintro ⟨sign, places, last, rfl, signed, placed, spelled⟩
    obtain ⟨after, digits, part, some⟩ := take_of_placesSpelled placed spelled.head?
    have first := takeSign_append signed (placed.head? last)
    simp only [scan?, first, digits, part, if_neg some, exponent?_of_spelled spelled,
      Option.map_some]

end Numeral

/-! ### Whole numbers in a radix -/

namespace Text

/-- The characters are digits of the radix, with these values. -/
def DigitsIn (radix : Nat) (s : Text) (values : List Nat) : Prop :=
  List.Forall₂ (fun c d => digitValue? c = some d ∧ d < radix) s values

theorem foldlM_digits_eq_some_iff {radix m n : Nat} {s : Text} :
    s.foldlM (fun n c => do
      let d ← digitValue? c
      if d < radix then some (n * radix + d) else none) m = some n ↔
      ∃ values, DigitsIn radix s values ∧
        m * radix ^ values.length + Nat.ofDigits radix values.reverse = n := by
  induction s generalizing m with
  | nil => simp [DigitsIn]
  | cons c s ih =>
    have shift (d : Nat) (values : List Nat) :
        m * radix ^ (d :: values).length + Nat.ofDigits radix (d :: values).reverse =
          (m * radix + d) * radix ^ values.length + Nat.ofDigits radix values.reverse := by
      rw [List.reverse_cons, Nat.ofDigits_append, Nat.ofDigits_singleton, List.length_reverse,
        List.length_cons]
      ring
    rw [List.foldlM_cons]
    constructor
    · intro h
      obtain ⟨next, step, later⟩ := Option.bind_eq_some_iff.1 h
      obtain ⟨d, digit, small⟩ := Option.bind_eq_some_iff.1 step
      split at small
      · next less =>
        cases small
        obtain ⟨values, all, value⟩ := ih.1 later
        exact ⟨d :: values, .cons ⟨digit, less⟩ all, (shift d values).trans value⟩
      · cases small
    · rintro ⟨_, all, value⟩
      cases all with
      | @cons _ d _ values first all =>
        rw [shift] at value
        refine Option.bind_eq_some_iff.2 ⟨m * radix + d, ?_, ih.2 ⟨values, all, value⟩⟩
        exact Option.bind_eq_some_iff.2 ⟨d, first.1, if_pos first.2⟩

theorem valueIn?_eq_some_iff {radix n : Nat} {s : Text} : valueIn? radix s = some n ↔
    ∃ values, DigitsIn radix s values ∧ Nat.ofDigits radix values.reverse = n := by
  rw [valueIn?, foldlM_digits_eq_some_iff]
  simp only [Nat.zero_mul, Nat.zero_add]

end Text

/-! ### Literals -/

namespace Binary64

/-- The marks before whole numbers, with their radices. -/
def radixMarks : List (Text × Nat) :=
  [("0x".toList, 16), ("0X".toList, 16), ("0o".toList, 8), ("0O".toList, 8), ("0b".toList, 2),
    ("0B".toList, 2)]

/-- The texts of a whole number below `2 ^ 64` in a radix: at least one digit and nothing else. -/
def IsWhole (radix : Nat) (s : Text) (n : Nat) : Prop :=
  s ≠ [] ∧ n < 2 ^ 64 ∧
    ∃ values, Text.DigitsIn radix s values ∧ Nat.ofDigits radix values.reverse = n

/-- The texts of a number, without blanks around them. -/
inductive IsLiteral : Text → Binary64 → Prop
  | blank : IsLiteral [] (zero false)
  | infinity {s : Text} : s = "Infinity".toList ∨ s = "+Infinity".toList →
    IsLiteral s (infinity false)
  | negativeInfinity : IsLiteral "-Infinity".toList (infinity true)
  | decimal {n : Numeral} {s : Text} : n.Spelled s → IsLiteral s n.nearest
  | whole {mark : Text} {radix n : Nat} {digits : Text} : (mark, radix) ∈ radixMarks →
    IsWhole radix digits n → IsLiteral (mark ++ digits) (ofNat n)

/-- A whole number after a radix mark, with a plus between the two. -/
def IsPlusWhole (s : Text) (x : Binary64) : Prop :=
  ∃ mark radix digits n, (mark, radix) ∈ radixMarks ∧ IsWhole radix digits n ∧
    s = mark ++ '+' :: digits ∧ x = ofNat n

theorem radixOf?_eq_some_iff {a b : Char} {radix : Nat} :
    radixOf? a b = some radix ↔ ([a, b], radix) ∈ radixMarks := by
  simp only [radixMarks, List.mem_cons, Prod.mk.injEq, List.not_mem_nil, or_false]
  constructor
  · intro h
    unfold radixOf? at h
    split at h
    case h_7 => cases h
    all_goals cases h; decide
  · rintro (⟨h, rfl⟩ | ⟨h, rfl⟩ | ⟨h, rfl⟩ | ⟨h, rfl⟩ | ⟨h, rfl⟩ | ⟨h, rfl⟩)
    all_goals cases h; rfl

theorem isWhole_iff {radix n : Nat} {s : Text} : IsWhole radix s n ↔
    s ≠ [] ∧ n < 2 ^ 64 ∧ Text.valueIn? radix s = some n := by
  rw [IsWhole, Text.valueIn?_eq_some_iff]

/-- A plus is no digit. -/
theorem not_isWhole_plus (radix : Nat) (s : Text) (n : Nat) : ¬IsWhole radix ('+' :: s) n := by
  rw [isWhole_iff]
  rintro ⟨-, -, value⟩
  rw [Text.valueIn?_of_mem radix List.mem_cons_self rfl] at value
  cases value

/-- The number that digits without a sign stand for, if it is below `2 ^ 64`. -/
def unsigned? (radix : Nat) (digits : Text) : Option Binary64 :=
  if digits = [] then none
  else (Text.valueIn? radix digits).bind fun n =>
    if n < 0x10000000000000000 then some (ofNat n) else none

theorem unsigned?_eq_some_iff {radix : Nat} {digits : Text} {x : Binary64} :
    unsigned? radix digits = some x ↔ ∃ n, x = ofNat n ∧ IsWhole radix digits n := by
  simp only [isWhole_iff, unsigned?]
  split
  · next none => simp [none]
  · next some =>
    cases value : Text.valueIn? radix digits with
    | none => simp
    | some n =>
      rw [Option.bind_some]
      split
      · next small => simp [some, small, eq_comm]
      · next large =>
        simp only [reduceCtorEq, Option.some.injEq, false_iff]
        rintro ⟨_, -, -, less, rfl⟩
        exact large less

theorem radixLiteral?_plus (radix : Nat) (digits : Text) :
    radixLiteral? radix ('+' :: digits) = unsigned? radix digits := by
  unfold radixLiteral? unsigned?
  split
  · next rest same =>
    cases same
    dsimp only
    cases Text.valueIn? radix digits <;> rfl
  · next other => exact absurd rfl (other digits)

theorem radixLiteral?_of_ne_plus {radix : Nat} {s : Text} (h : ∀ digits, s ≠ '+' :: digits) :
    radixLiteral? radix s = unsigned? radix s := by
  unfold radixLiteral? unsigned?
  split
  · next digits => exact absurd rfl (h digits)
  · dsimp only
    cases Text.valueIn? radix s <;> rfl

/-- What is read after a radix mark is a whole number, with an optional plus before it. -/
theorem radixLiteral?_eq_some_iff {radix : Nat} {s : Text} {x : Binary64} :
    radixLiteral? radix s = some x ↔ ∃ n, x = ofNat n ∧
      (IsWhole radix s n ∨ ∃ digits, s = '+' :: digits ∧ IsWhole radix digits n) := by
  by_cases plus : ∃ digits, s = '+' :: digits
  · obtain ⟨digits, rfl⟩ := plus
    rw [radixLiteral?_plus, unsigned?_eq_some_iff]
    refine exists_congr fun n => and_congr_right fun _ => ⟨?_, ?_⟩
    · exact fun whole => .inr ⟨digits, rfl, whole⟩
    · rintro (whole | ⟨_, ⟨⟩, whole⟩)
      · exact absurd whole (not_isWhole_plus radix digits n)
      · exact whole
  · rw [radixLiteral?_of_ne_plus fun digits h => plus ⟨digits, h⟩, unsigned?_eq_some_iff]
    refine exists_congr fun n => and_congr_right fun _ => ⟨.inl, ?_⟩
    rintro (whole | ⟨digits, rfl, -⟩)
    · exact whole
    · exact absurd ⟨digits, rfl⟩ plus

section

variable {mark : Text} {radix : Nat} (marked : (mark, radix) ∈ radixMarks) (rest : Text)
include marked

theorem scan?_radixMark : Numeral.scan? (mark ++ rest) = none := by
  simp only [radixMarks, List.mem_cons, Prod.mk.injEq, List.not_mem_nil, or_false] at marked
  rcases marked with ⟨rfl, -⟩ | ⟨rfl, -⟩ | ⟨rfl, -⟩ | ⟨rfl, -⟩ | ⟨rfl, -⟩ | ⟨rfl, -⟩
  all_goals rfl

theorem trimmedLiteral?_radixMark :
    trimmedLiteral? (mark ++ rest) = radixLiteral? radix rest := by
  simp only [radixMarks, List.mem_cons, Prod.mk.injEq, List.not_mem_nil, or_false] at marked
  rcases marked with ⟨rfl, rfl⟩ | ⟨rfl, rfl⟩ | ⟨rfl, rfl⟩ | ⟨rfl, rfl⟩ | ⟨rfl, rfl⟩ | ⟨rfl, rfl⟩
  all_goals
    unfold trimmedLiteral?
    rfl

end

/-- A numeral is neither blank nor an infinity, and no radix mark stands before it. -/
theorem trimmedLiteral?_of_spelled {n : Numeral} {s : Text} (h : n.Spelled s) :
    trimmedLiteral? s = some n.nearest := by
  have read := Numeral.scan?_eq_some_iff.2 h
  have other {t : Text} (none : Numeral.scan? t = none) : s ≠ t := by
    rintro rfl
    rw [none] at read
    cases read
  unfold trimmedLiteral?
  rw [if_neg (other (by decide)),
    if_neg (not_or.2 ⟨other (by decide), other (by decide)⟩), if_neg (other (by decide))]
  split
  · next a b rest =>
    split
    · next radix marked =>
      exact absurd rfl (other (scan?_radixMark (radixOf?_eq_some_iff.1 marked) rest))
    · rw [read, Option.map_some]
  · rw [read, Option.map_some]

theorem isLiteral_or_of_trimmedLiteral? {s : Text} {x : Binary64} (h : trimmedLiteral? s = some x) :
    IsLiteral s x ∨ IsPlusWhole s x := by
  have numeral (h : (Numeral.scan? s).map Numeral.nearest = some x) : IsLiteral s x := by
    obtain ⟨n, read, rfl⟩ := Option.map_eq_some_iff.1 h
    exact .decimal (Numeral.scan?_eq_some_iff.1 read)
  unfold trimmedLiteral? at h
  split at h
  · next none =>
    cases h
    exact .inl (none ▸ .blank)
  split at h
  · next words =>
    cases h
    exact .inl (.infinity words)
  split at h
  · next word =>
    cases h
    exact .inl (word ▸ .negativeInfinity)
  split at h
  · next a b rest =>
    split at h
    · next radix mark =>
      have marked := radixOf?_eq_some_iff.1 mark
      obtain ⟨n, rfl, whole | ⟨digits, rfl, whole⟩⟩ := radixLiteral?_eq_some_iff.1 h
      · exact .inl (.whole marked whole)
      · exact .inr ⟨_, radix, digits, n, marked, whole, rfl, rfl⟩
    · exact .inl (numeral h)
  · exact .inl (numeral h)

theorem IsLiteral.trimmedLiteral? {s : Text} {x : Binary64} (h : IsLiteral s x) :
    trimmedLiteral? s = some x := by
  cases h with
  | blank => rfl
  | infinity words => rcases words with rfl | rfl <;> rfl
  | negativeInfinity => rfl
  | decimal h => exact trimmedLiteral?_of_spelled h
  | @whole mark radix n digits marked h =>
    rw [trimmedLiteral?_radixMark marked]
    exact radixLiteral?_eq_some_iff.2 ⟨n, rfl, .inl h⟩

/-- A text is read as a number exactly if without the blanks around it it is a literal of the
number, or a whole number with a plus after the radix mark. -/
theorem literal?_eq_some_iff {s : Text} {x : Binary64} :
    literal? s = some x ↔ IsLiteral (Text.trim s) x ∨ IsPlusWhole (Text.trim s) x := by
  rw [literal?]
  constructor
  · exact isLiteral_or_of_trimmedLiteral?
  · rintro (literal | ⟨mark, radix, digits, n, marked, whole, plus, rfl⟩)
    · exact literal.trimmedLiteral?
    · rw [plus, trimmedLiteral?_radixMark marked]
      exact radixLiteral?_eq_some_iff.2 ⟨n, rfl, .inr ⟨digits, rfl, whole⟩⟩

/-- Which texts are numbers. -/
theorem isSome_literal?_iff (s : Text) : (literal? s).isSome ↔
    (∃ x, IsLiteral (Text.trim s) x) ∨ ∃ x, IsPlusWhole (Text.trim s) x := by
  rw [Option.isSome_iff_exists, ← exists_or]
  exact exists_congr fun x => literal?_eq_some_iff

/-- With a plus after the radix mark a text is a number and no literal. -/
theorem not_isSome_literal?_iff :
    ¬ ∀ s : Text, (literal? s).isSome ↔ ∃ x, IsLiteral (Text.trim s) x := by
  intro same
  obtain ⟨x, literal⟩ : ∃ x, IsLiteral "0x+1F".toList x := (same "0x+1F".toList).1 (by decide)
  have digits : Numeral.scan? "0x+1F".toList = none := by decide
  generalize whole : "0x+1F".toList = s at literal digits
  cases literal with
  | blank => cases whole
  | infinity words => rcases words with rfl | rfl <;> cases whole
  | negativeInfinity => cases whole
  | decimal h =>
    rw [Numeral.scan?_eq_some_iff.2 h] at digits
    cases digits
  | @whole mark radix n digits marked h =>
    simp only [radixMarks, List.mem_cons, Prod.mk.injEq, List.not_mem_nil, or_false] at marked
    rcases marked with ⟨rfl, -⟩ | ⟨rfl, -⟩ | ⟨rfl, -⟩ | ⟨rfl, -⟩ | ⟨rfl, -⟩ | ⟨rfl, -⟩
    all_goals cases whole
    exact not_isWhole_plus radix _ n h

end Binary64
end BlockCanvas
