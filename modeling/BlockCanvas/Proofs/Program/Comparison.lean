import BlockCanvas.Proofs.Program.Numbers

/-!
# Comparisons

The order of values is the order of their texts or of the numbers they count as, and their equality
compares within one kind.  Nevertheless the three comparisons fit together: what is equal is shown
alike (`display_of_same`) and so is not below the other (`below_of_same`), and nothing is below
what is below it (`below_asymm`).  Of two texts, and of two numbers that are no NaN, one is below
the other or they are equal.

Main statement: `holds_comparisons`, the conditions that compare two bound names.
-/

namespace BlockCanvas

namespace Binary64

variable {x y : Binary64}

theorem eq_comm (x y : Binary64) : x.eq y = y.eq x := by
  rw [eq, eq, Bool.and_comm (!x.isNaN), Bool.beq_comm]

/-- Equal numbers are the same number, or both are zeros. -/
theorem eq_or_isZero_of_eq (h : x.eq y = true) : x = y ∨ x.isZero ∧ y.isZero := by
  obtain ⟨negative, code, limit⟩ := x
  obtain ⟨negative', code', limit'⟩ := y
  simp only [eq, key, Bool.and_eq_true, beq_iff_eq] at h
  simp only [isZero, beq_iff_eq, mk.injEq]
  cases negative <;> cases negative' <;> simp at h ⊢ <;> omega

theorem display_of_isZero (h : x.isZero) : x.display = ['0'] := by
  have code : x.code = 0 := eq_of_beq h
  simp [display, isNaN, isInfinite, h, code, infinityCode]

/-- Equal numbers are shown alike. -/
theorem display_of_eq (h : x.eq y = true) : x.display = y.display := by
  rcases eq_or_isZero_of_eq h with rfl | ⟨hx, hy⟩
  · rfl
  · rw [display_of_isZero hx, display_of_isZero hy]

theorem lt_of_eq (h : x.eq y = true) : x.lt y = false := by
  simp only [eq, Bool.and_eq_true, beq_iff_eq] at h
  simp [lt, h.2]

theorem lt_asymm (h : x.lt y = true) : y.lt x = false := by
  simp only [lt, Bool.and_eq_true, decide_eq_true_eq] at h
  simp only [lt, Bool.and_eq_false_iff, decide_eq_false_iff_not]
  omega

/-- Numbers that are no NaN have a total order. -/
theorem lt_or_eq_or_lt (hx : x.isNaN = false) (hy : y.isNaN = false) :
    x.lt y = true ∨ x.eq y = true ∨ y.lt x = true := by
  simp only [lt, eq, hx, hy, Bool.not_false, Bool.true_and, decide_eq_true_eq, beq_iff_eq]
  exact Int.lt_trichotomy x.key y.key

end Binary64

namespace Value

/-! ### Equality -/

mutual

theorem same_comm : ∀ v w : Value, v.same w = w.same v
  | text _, text _ => Bool.beq_comm
  | number _, number _ => Binary64.eq_comm _ _
  | list items, list more => sameItems_comm items more
  | text _, number _ | text _, list _ | number _, text _ | number _, list _
  | list _, text _ | list _, number _ => rfl

theorem sameItems_comm : ∀ items more : List Value, sameItems items more = sameItems more items
  | [], [] => rfl
  | [], _ :: _ | _ :: _, [] => rfl
  | v :: vs, w :: ws => by rw [sameItems, sameItems, same_comm v w, sameItems_comm vs ws]

end

mutual

/-- Equal values are shown alike, also where their zeros have different signs. -/
theorem display_of_same : ∀ v w : Value, v.same w = true → v.display = w.display
  | text _, text _, h => eq_of_beq h
  | number _, number _, h => Binary64.display_of_eq h
  | list items, list more, h => displayItems_of_sameItems items more h

theorem displayItems_of_sameItems : ∀ items more : List Value, sameItems items more = true →
    displayItems items = displayItems more
  | [], [], _ => rfl
  | [v], [w], h => display_of_same v w (Bool.and_eq_true_iff.1 h).1
  | v :: v' :: vs, w :: w' :: ws, h => by
    obtain ⟨first, rest⟩ := Bool.and_eq_true_iff.1 h
    rw [displayItems, displayItems, display_of_same v w first,
      displayItems_of_sameItems (v' :: vs) (w' :: ws) rest]
  | [_], _ :: _ :: _, h | _ :: _ :: _, [_], h => by simp [sameItems] at h

end

end Value

namespace Expression

/-! ### Order -/

theorem textLt_irrefl (s : Text) : textLt s s = false := by
  induction s with
  | nil => rfl
  | cons c s ih => rwa [textLt, if_pos rfl]

theorem textLt_asymm {s t : Text} (h : textLt s t = true) : textLt t s = false := by
  induction s generalizing t with
  | nil =>
    cases t with
    | nil => cases h
    | cons d t => rfl
  | cons c s ih =>
    cases t with
    | nil => cases h
    | cons d t =>
      rw [textLt] at h ⊢
      split at h
      · next same => rw [if_pos same.symm, ih h]
      · next other =>
        rw [if_neg (Ne.symm other)]
        simp only [decide_eq_true_eq] at h
        simp only [decide_eq_false_iff_not]
        omega

/-- The order of texts is total. -/
theorem textLt_or_eq_or_textLt (s t : Text) :
    textLt s t = true ∨ s = t ∨ textLt t s = true := by
  induction s generalizing t with
  | nil =>
    cases t with
    | nil => exact .inr (.inl rfl)
    | cons d t => exact .inl rfl
  | cons c s ih =>
    cases t with
    | nil => exact .inr (.inr rfl)
    | cons d t =>
      by_cases same : c = d
      · subst same
        simpa [textLt] using ih t
      · have apart : c.toNat ≠ d.toNat := fun h => same (Char.toNat_inj.1 h)
        simp only [textLt, if_neg same, if_neg (Ne.symm same), decide_eq_true_eq]
        omega

/-- The order of two values as numbers. -/
def numberLt (v w : Value) : Bool :=
  match v.toNumber?, w.toNumber? with
  | some x, some y => x.lt y
  | _, _ => false

theorem numberLt_asymm {v w : Value} (h : numberLt v w = true) : numberLt w v = false := by
  unfold numberLt at h ⊢
  cases hv : v.toNumber? <;> cases hw : w.toNumber? <;> simp only [hv, hw] at h ⊢
  exact Binary64.lt_asymm h

/-- Two values are compared as texts whichever of them is asked about, or as numbers. -/
theorem below_cases (v w : Value) :
    (below v w = textLt v.display w.display ∧ below w v = textLt w.display v.display) ∨
      (below v w = numberLt v w ∧ below w v = numberLt w v) := by
  cases v <;> cases w
  case text.text | text.list | list.text | list.list => exact .inl ⟨rfl, rfl⟩
  all_goals exact .inr ⟨rfl, rfl⟩

theorem below_asymm {v w : Value} (h : below v w = true) : below w v = false := by
  rcases below_cases v w with ⟨forth, back⟩ | ⟨forth, back⟩
  · rw [forth] at h
    rw [back, textLt_asymm h]
  · rw [forth] at h
    rw [back, numberLt_asymm h]

theorem below_of_same {v w : Value} (h : v.same w = true) : below v w = false := by
  have shown := Value.display_of_same v w h
  cases v <;> cases w <;> try cases h
  case number.number => exact Binary64.lt_of_eq h
  all_goals
    show textLt _ _ = false
    rw [shown, textLt_irrefl]

/-- Of two texts one is below the other or they are equal, and so it is with two numbers. -/
theorem below_or_same_or_below {v w : Value} (hv : v.NoNaN) (hw : w.NoNaN)
    (alike : (∃ s t, v = .text s ∧ w = .text t) ∨ ∃ x y, v = .number x ∧ w = .number y) :
    below v w = true ∨ v.same w = true ∨ below w v = true := by
  rcases alike with ⟨s, t, rfl, rfl⟩ | ⟨x, y, rfl, rfl⟩
  · show textLt s t = true ∨ (s == t) = true ∨ textLt t s = true
    rw [beq_iff_eq]
    exact textLt_or_eq_or_textLt s t
  · exact Binary64.lt_or_eq_or_lt (hv x List.mem_cons_self) (hw y List.mem_cons_self)

/-! ### Conditions -/

/-- A name of word characters is looked up, also if it has none. -/
theorem evaluate_of_chars {x : Text} (chars : ∀ c ∈ x, Text.isWordChar c)
    (plain : Binary64.literal? x = none) {b : Bindings} {v : Value} (bound : b.get? x = some v) :
    evaluate b x = .ok v := by
  by_cases nil : x = []
  · subst nil
    have atom : atom? b [] = some v := by
      rw [atom?, show unquote? [] = none from rfl, plain]
      exact bound
    rw [evaluate, evaluateIn, atom]
  · rw [evaluate_of_word ⟨nil, chars⟩ plain, bound, Option.getD_some]

section

variable {x y : Text} (left : ∀ c ∈ x, Text.isWordChar c) (right : ∀ c ∈ y, Text.isWordChar c)
  (plainLeft : Binary64.literal? x = none) (plainRight : Binary64.literal? y = none)
  {b : Bindings} {v w : Value} (hv : b.get? x = some v) (hw : b.get? y = some w)
include left right plainLeft plainRight hv hw

/-- A comparison of two bound names compares their values. -/
theorem holds_words (c : Comparison) : holds b (x ++ c.token ++ y) = .ok (compare c v w) := by
  rw [holds, cutCondition?_words left right]
  dsimp only
  rw [evaluate_of_chars left plainLeft hv, evaluate_of_chars right plainRight hw]
  rfl

/-- In a table without NaNs each of the three comparisons of two bound names has an answer.  The
answer does not change when the sides are swapped and the comparison with them; at most one of the
three holds, and exactly one if both values are texts or both are numbers; and values that are
equal are shown alike, lists with all that is in them. -/
theorem holds_comparisons (noNaN : b.All Value.NoNaN) : ∃ greater less equal : Bool,
    holds b (x ++ " > ".toList ++ y) = .ok greater ∧
    holds b (y ++ " < ".toList ++ x) = .ok greater ∧
    holds b (x ++ " < ".toList ++ y) = .ok less ∧
    holds b (y ++ " > ".toList ++ x) = .ok less ∧
    holds b (x ++ " == ".toList ++ y) = .ok equal ∧
    holds b (y ++ " == ".toList ++ x) = .ok equal ∧
    [greater, less, equal].count true ≤ 1 ∧
    ((∃ s t, v = .text s ∧ w = .text t) ∨ (∃ p q, v = .number p ∧ w = .number q) →
      [greater, less, equal].count true = 1) ∧
    (equal = true → v.display = w.display) := by
  have forth (c : Comparison) := holds_words left right plainLeft plainRight hv hw c
  have back (c : Comparison) := holds_words right left plainRight plainLeft hw hv c
  have equals : w.same v = v.same w := Value.same_comm w v
  have apart : below w v = true → below v w = false := below_asymm
  have notLess : v.same w = true → below v w = false := below_of_same
  have notGreater : v.same w = true → below w v = false := fun h => below_of_same (equals.trans h)
  have most : [below w v, below v w, v.same w].count true ≤ 1 := by
    revert apart notLess notGreater
    generalize below w v = greater, below v w = less, v.same w = equal
    revert greater less equal
    decide
  refine ⟨below w v, below v w, v.same w, forth .greater, back .less, forth .less, back .greater,
    forth .equal, equals ▸ back .equal, most, fun alike => le_antisymm most ?_,
    Value.display_of_same v w⟩
  apply List.count_pos_iff.2
  rcases below_or_same_or_below (noNaN.get? hv) (noNaN.get? hw) alike with less | equal | greater
  · simp [less]
  · simp [equal]
  · simp [greater]

end

/-- Two lists that differ in the sign of a zero, and two texts. -/
def compared : Bindings :=
  (((Bindings.empty.bind "xs".toList (.list [.number (.zero false), .list [.text "é".toList]])).bind
    "ys".toList (.list [.number (.zero true), .list [.text "é".toList]])).bind
    "s".toList (.text "z".toList)).bind "t".toList (.text "é".toList)

/-- The lists are equal, and only that.  The text that starts with an accented letter is above the
other one, and only that. -/
theorem holds_comparisons_zeros : compared.All Value.NoNaN ∧
    (Text.IsWord "xs".toList ∧ Text.IsWord "ys".toList ∧ Text.IsWord "s".toList ∧
      Text.IsWord "t".toList) ∧
    (∃ greater less : Bool, holds compared "xs > ys".toList = .ok greater ∧
      holds compared "xs < ys".toList = .ok less ∧
      holds compared "xs == ys".toList = .ok true ∧ [greater, less, true].count true ≤ 1 ∧
      Value.display (.list [.number (.zero false), .list [.text "é".toList]]) =
        Value.display (.list [.number (.zero true), .list [.text "é".toList]])) ∧
    ∃ less equal : Bool, holds compared "t > s".toList = .ok true ∧
      holds compared "t < s".toList = .ok less ∧ holds compared "t == s".toList = .ok equal ∧
      [true, less, equal].count true = 1 := by
  have noNaN : compared.All Value.NoNaN := by
    unfold Bindings.All Value.NoNaN
    decide
  have plain (s : Text) (h : s ∈ ["xs".toList, "ys".toList, "s".toList, "t".toList]) :
      Binary64.literal? s = none := by
    revert s
    decide
  have words : Text.IsWord "xs".toList ∧ Text.IsWord "ys".toList ∧ Text.IsWord "s".toList ∧
      Text.IsWord "t".toList := by decide
  have ⟨xs, ys, s, t⟩ := words
  obtain ⟨greater, less, equal, h1, -, h2, -, h3, -, most, -, shown⟩ :=
    holds_comparisons xs.chars ys.chars (plain _ (by decide)) (plain _ (by decide)) (b := compared)
      rfl rfl noNaN
  obtain ⟨greater', less', equal', h1', -, h2', -, h3', -, -, one, -⟩ :=
    holds_comparisons t.chars s.chars (plain _ (by decide)) (plain _ (by decide)) (b := compared)
      rfl rfl noNaN
  have equalLists : holds compared "xs == ys".toList = .ok true := rfl
  have greaterTexts : holds compared "t > s".toList = .ok true := rfl
  obtain rfl : equal = true := Except.ok.inj (h3.symm.trans equalLists)
  obtain rfl : greater' = true := Except.ok.inj (h1'.symm.trans greaterTexts)
  exact ⟨noNaN, words, ⟨greater, less, h1, h2, h3, most, shown rfl⟩, less', equal', h1', h2',
    h3', one (.inl ⟨_, _, rfl, rfl⟩)⟩

end Expression
end BlockCanvas
