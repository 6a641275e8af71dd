import Mathlib.Data.List.TakeWhile
import BlockCanvas.Proofs.Text.Search
import BlockCanvas.Text.LowerCase

/-!
# Lower case of parts

Each character has its lower-case form by itself, except for the capital sigma, which has another
one at the end of a word.  So the lower-case form of a part of a text is a part of its lower-case
form as long as the capital sigmas of the part end words in the text where they do in the part
alone: `KeepsSigmas.infix`.  A letter before or after a part that can change one of its sigmas does
change exactly one of them, and then the lower-case form of the part is not found in that of the
text: `not_infix_of_not_keepsSigmas`.
-/

namespace BlockCanvas
namespace Text

variable {a b p s t u v x y x' y' : Text}

/-! ### Around a character -/

/-- A capital sigma between these texts is the last letter of a word. -/
def EndsWord (before after : Text) : Prop :=
  meetsLetter before.reverse = true ∧ meetsLetter after = false

instance (before after : Text) : Decidable (EndsWord before after) :=
  inferInstanceAs (Decidable (_ ∧ _))

theorem meetsLetter_append_of_skipped (skipped : ∀ c ∈ s, caseIgnorable.has c) (t : Text) :
    meetsLetter (s ++ t) = meetsLetter t := by
  rw [meetsLetter, List.dropWhile_append_of_pos skipped, ← meetsLetter]

/-- What stands behind a character that is not looked through does not count. -/
theorem meetsLetter_append_of_not_skipped (stop : ¬ ∀ c ∈ s, caseIgnorable.has c) (t : Text) :
    meetsLetter (s ++ t) = meetsLetter s := by
  have rest : s.dropWhile caseIgnorable.has ≠ [] := by
    rwa [Ne, List.dropWhile_eq_nil_iff]
  rw [meetsLetter, meetsLetter, List.dropWhile_append, if_neg (by simpa using rest)]
  obtain ⟨c, rest, h⟩ := List.exists_cons_of_ne_nil rest
  rw [h]
  rfl

theorem meetsLetter_of_skipped (skipped : ∀ c ∈ s, caseIgnorable.has c) :
    meetsLetter s = false := by
  rw [← List.append_nil s, meetsLetter_append_of_skipped skipped]
  rfl

theorem meetsLetter_append (h : meetsLetter s = true) (t : Text) : meetsLetter (s ++ t) = true := by
  rw [meetsLetter_append_of_not_skipped _ t, h]
  intro skipped
  rw [meetsLetter_of_skipped skipped] at h
  cases h

/-- A capital sigma is a letter. -/
theorem sigma_notMem_of_skipped (skipped : ∀ c ∈ s, caseIgnorable.has c) : 'Σ' ∉ s := by
  have letter : caseIgnorable.has 'Σ' = false := by decide +kernel
  intro sigma
  rw [skipped 'Σ' sigma] at letter
  cases letter

theorem meetsLetter_append_sigma (s t t' : Text) :
    meetsLetter (s ++ 'Σ' :: t) = meetsLetter (s ++ 'Σ' :: t') := by
  have stop : ¬ ∀ c ∈ s ++ ['Σ'], caseIgnorable.has c := fun skipped =>
    sigma_notMem_of_skipped skipped (List.mem_append_right s List.mem_cons_self)
  have parts (t : Text) : s ++ 'Σ' :: t = (s ++ ['Σ']) ++ t := List.append_cons ..
  rw [parts t, parts t', meetsLetter_append_of_not_skipped stop,
    meetsLetter_append_of_not_skipped stop]

/-! ### Between two texts -/

/-- The lower-case form of a text between the text before it, which is given backwards, and the
text after it. -/
def toLowerBetween (before : Text) : Text → Text → Text
  | [], _ => []
  | c :: s, after => lowerIn before c (s ++ after) ++ toLowerBetween (c :: before) s after

theorem toLowerAfter_eq (before s : Text) : toLowerAfter before s = toLowerBetween before s [] := by
  induction s generalizing before with
  | nil => rfl
  | cons c s ih => rw [toLowerAfter, toLowerBetween, List.append_nil, ih]

theorem toLowerBetween_append (before s t after : Text) : toLowerBetween before (s ++ t) after =
    toLowerBetween before s (t ++ after) ++ toLowerBetween (s.reverse ++ before) t after := by
  induction s generalizing before with
  | nil => rfl
  | cons c s ih =>
    rw [List.cons_append, toLowerBetween, toLowerBetween, ih]
    simp

theorem toLower_append (a p b : Text) : toLower (a ++ p ++ b) =
    toLowerBetween [] a (p ++ b) ++ toLowerBetween a.reverse p b ++
      toLowerBetween (p.reverse ++ a.reverse) b [] := by
  rw [toLower, toLowerAfter_eq, toLowerBetween_append, toLowerBetween_append]
  simp

theorem lowerIn_sigma (x y : Text) :
    lowerIn x.reverse 'Σ' y = [if EndsWord x y then 'ς' else 'σ'] := by
  rw [lowerIn, if_pos rfl]
  congr 1
  exact if_congr (by simp [EndsWord]) rfl rfl

theorem lowerIn_of_ne {c : Char} (h : c ≠ 'Σ') (x y x' y' : Text) :
    lowerIn x c y = lowerIn x' c y' := by
  rw [lowerIn, lowerIn, if_neg h, if_neg h]

/-- Only the capital sigmas of a text look at what stands around it. -/
theorem toLowerBetween_congr (h : ∀ u v, s = u ++ 'Σ' :: v →
    (EndsWord (x ++ u) (v ++ y) ↔ EndsWord (x' ++ u) (v ++ y'))) :
    toLowerBetween x.reverse s y = toLowerBetween x'.reverse s y' := by
  induction s generalizing x x' with
  | nil => rfl
  | cons c s ih =>
    have first : lowerIn x.reverse c (s ++ y) = lowerIn x'.reverse c (s ++ y') := by
      by_cases sigma : c = 'Σ'
      · subst sigma
        have same := h [] s rfl
        rw [List.append_nil, List.append_nil] at same
        simp only [lowerIn_sigma, same]
      · exact lowerIn_of_ne sigma ..
    have rest :
        toLowerBetween (x ++ [c]).reverse s y = toLowerBetween (x' ++ [c]).reverse s y' := by
      apply ih
      rintro u v rfl
      rw [List.append_assoc, List.append_assoc]
      exact h (c :: u) v rfl
    rw [List.reverse_concat, List.reverse_concat] at rest
    rw [toLowerBetween, toLowerBetween, first, rest]

/-- The capital sigmas of a part end words in the whole where they do in the part alone. -/
def KeepsSigmas (a p b : Text) : Prop :=
  ∀ u v, p = u ++ 'Σ' :: v → (EndsWord (a ++ u) (v ++ b) ↔ EndsWord u v)

theorem keepsSigmas_iff : KeepsSigmas a p b ↔ ∀ i : Fin p.length, p[i] = 'Σ' →
    (EndsWord (a ++ p.take i) (p.drop (i + 1) ++ b) ↔ EndsWord (p.take i) (p.drop (i + 1))) := by
  constructor
  · intro keeps i sigma
    apply keeps
    rw [← sigma, Fin.getElem_fin, ← List.drop_eq_getElem_cons, List.take_append_drop]
  · rintro each u v rfl
    have place : u.length < (u ++ 'Σ' :: v).length := by simp
    simpa using each ⟨u.length, place⟩ (by simp)

instance (a p b : Text) : Decidable (KeepsSigmas a p b) := decidable_of_iff' _ keepsSigmas_iff

theorem keepsSigmas_of_notMem (h : 'Σ' ∉ p) : KeepsSigmas a p b := by
  rintro u v rfl
  exact absurd (by simp) h

theorem KeepsSigmas.infix (h : KeepsSigmas a p b) : toLower p <:+: toLower (a ++ p ++ b) := by
  have part : toLowerBetween a.reverse p b = toLower p := by
    rw [toLower, toLowerAfter_eq, ← List.reverse_nil]
    refine toLowerBetween_congr fun u v parts => ?_
    rw [List.reverse_nil, List.append_nil]
    exact h u v parts
  rw [toLower_append, part]
  exact ⟨_, _, rfl⟩

/-! ### Sigmas that change -/

/-- What stands before a capital sigma does not look beyond it, and neither does what stands
behind it. -/
theorem toLowerBetween_sigma (a u v b : Text) : toLowerBetween a.reverse (u ++ 'Σ' :: v) b =
    toLowerBetween a.reverse u ['Σ'] ++ [if EndsWord (a ++ u) (v ++ b) then 'ς' else 'σ'] ++
      toLowerBetween ['Σ'] v b := by
  have front : toLowerBetween a.reverse u ('Σ' :: v ++ b) = toLowerBetween a.reverse u ['Σ'] := by
    refine toLowerBetween_congr fun u' v' _ => ?_
    rw [EndsWord, EndsWord, List.cons_append, meetsLetter_append_sigma v' (v ++ b) []]
  have back : toLowerBetween (a ++ u ++ ['Σ']).reverse v b = toLowerBetween ['Σ'].reverse v b := by
    refine toLowerBetween_congr fun u' v' _ => ?_
    have before (w : Text) : (w ++ ['Σ'] ++ u').reverse = u'.reverse ++ 'Σ' :: w.reverse := by simp
    rw [EndsWord, EndsWord, before, ← List.nil_append ['Σ'], before,
      meetsLetter_append_sigma _ _ (List.reverse [])]
  have middle := lowerIn_sigma (a ++ u) (v ++ b)
  rw [List.reverse_append] at middle
  rw [List.reverse_concat, List.reverse_append] at back
  rw [toLowerBetween_append, front, toLowerBetween, middle, back]
  simp

/-- A letter can change a capital sigma of a part only if it stands behind the part and nothing but
characters that are looked through is between, or before the part in the same way. -/
theorem exists_sigma_of_not_keepsSigmas (h : ¬ KeepsSigmas a p b) : ∃ u v, p = u ++ 'Σ' :: v ∧
    ((EndsWord u v ∧ ∀ c ∈ v, caseIgnorable.has c) ∨
      (¬ EndsWord u v ∧ meetsLetter v = false ∧ ∀ c ∈ u, caseIgnorable.has c)) := by
  simp only [KeepsSigmas, not_forall] at h
  obtain ⟨u, v, parts, changes⟩ := h
  refine ⟨u, v, parts, ?_⟩
  by_cases final : EndsWord u v
  · left
    refine ⟨final, ?_⟩
    by_contra stop
    apply changes
    have still : EndsWord (a ++ u) (v ++ b) := by
      rw [EndsWord, List.reverse_append, meetsLetter_append final.1,
        meetsLetter_append_of_not_skipped stop]
      exact ⟨rfl, final.2⟩
    exact iff_of_true still final
  · right
    have now : EndsWord (a ++ u) (v ++ b) := by
      by_contra never
      exact changes (iff_of_false never final)
    have unclosed : meetsLetter v = false := by
      cases letter : meetsLetter v with
      | false => rfl
      | true =>
        have later := now.2
        rw [meetsLetter_append letter] at later
        cases later
    refine ⟨final, unclosed, ?_⟩
    by_contra stop
    have before := now.1
    rw [List.reverse_append, meetsLetter_append_of_not_skipped (by simpa using stop)] at before
    exact final ⟨before, unclosed⟩

theorem toLower_sigma (u v : Text) : toLower (u ++ 'Σ' :: v) =
    toLowerBetween [] u ['Σ'] ++ [if EndsWord u v then 'ς' else 'σ'] ++
      toLowerBetween ['Σ'] v [] := by
  have form := toLowerBetween_sigma [] u v []
  rwa [List.nil_append, List.append_nil, List.reverse_nil, ← toLowerAfter_eq] at form

theorem toLowerBetween_of_notMem (h : 'Σ' ∉ s) :
    toLowerBetween x.reverse s y = toLowerBetween x'.reverse s y' := by
  refine toLowerBetween_congr fun u v parts => ?_
  rw [parts] at h
  exact absurd (List.mem_append_right u List.mem_cons_self) h

theorem toLowerBetween_alpha (before after : Text) : toLowerBetween before ['Α'] after = ['α'] := by
  rw [toLowerBetween, lowerIn_of_ne (by decide) before _ [] []]
  show lowerIn [] 'Α' [] ++ [] = ['α']
  decide +kernel

theorem not_infix_of_count_lt {c : Char} (h : t.count c < s.count c) : ¬ s <:+: t :=
  fun inside => absurd (inside.sublist.count_le c) (Nat.not_le.2 h)

/-- If a letter can change a sigma of a part, then an alpha behind the part or before it does, and
the part alone has one final sigma more, or one other sigma more, than the whole. -/
theorem not_infix_of_not_keepsSigmas (h : ¬ KeepsSigmas a p b) :
    ¬ toLower p <:+: toLower (p ++ ['Α']) ∨ ¬ toLower p <:+: toLower ('Α' :: p) := by
  have letter : meetsLetter ['Α'] = true := by decide +kernel
  obtain ⟨u, v, rfl, ⟨final, skipped⟩ | ⟨inner, unclosed, skipped⟩⟩ :=
    exists_sigma_of_not_keepsSigmas h
  · left
    have inner : ¬ EndsWord ([] ++ u) (v ++ ['Α']) := by
      rintro ⟨-, closed⟩
      rw [meetsLetter_append_of_skipped skipped, letter] at closed
      cases closed
    have whole : toLower (u ++ 'Σ' :: v ++ ['Α']) =
        toLowerBetween [] u ['Σ'] ++ ['σ'] ++ toLowerBetween ['Σ'] v [] ++ ['α'] := by
      have back : toLowerBetween ['Σ'].reverse v ['Α'] = toLowerBetween ['Σ'].reverse v [] :=
        toLowerBetween_of_notMem (sigma_notMem_of_skipped skipped)
      have form := toLower_append [] (u ++ 'Σ' :: v) ['Α']
      rw [toLowerBetween_sigma, if_neg inner, toLowerBetween_alpha] at form
      rw [List.reverse_singleton] at back
      rwa [back] at form
    apply not_infix_of_count_lt (c := 'ς')
    rw [whole, toLower_sigma, if_pos final]
    simp only [List.count_append]
    have counts : List.count 'ς' ['σ'] = 0 ∧ List.count 'ς' ['α'] = 0 ∧
        List.count 'ς' ['ς'] = 1 := by decide
    omega
  · right
    have final : EndsWord (['Α'] ++ u) (v ++ []) := by
      have skipped' : ∀ c ∈ u.reverse, caseIgnorable.has c := by simpa using skipped
      rw [EndsWord, List.reverse_append, meetsLetter_append_of_skipped skipped', List.append_nil]
      exact ⟨letter, unclosed⟩
    have whole : toLower ('Α' :: (u ++ 'Σ' :: v)) =
        ['α'] ++ (toLowerBetween [] u ['Σ'] ++ ['ς'] ++ toLowerBetween ['Σ'] v []) := by
      have front : toLowerBetween ['Α'].reverse u ['Σ'] = toLowerBetween [].reverse u ['Σ'] :=
        toLowerBetween_of_notMem (sigma_notMem_of_skipped skipped)
      have form := toLower_append ['Α'] (u ++ 'Σ' :: v) []
      rw [toLowerBetween_sigma, if_pos final, toLowerBetween_alpha, front] at form
      simpa [toLowerBetween] using form
    apply not_infix_of_count_lt (c := 'σ')
    rw [whole, toLower_sigma, if_neg inner]
    simp only [List.count_append]
    have counts : List.count 'σ' ['ς'] = 0 ∧ List.count 'σ' ['α'] = 0 ∧
        List.count 'σ' ['σ'] = 1 := by decide
    omega

/-- The two lower-case forms of a capital sigma. -/
theorem sigma_mem_toLower (h : 'Σ' ∈ s) : 'σ' ∈ toLower s ∨ 'ς' ∈ toLower s := by
  obtain ⟨u, v, rfl⟩ := List.append_of_mem h
  rw [toLower_sigma]
  split
  · exact .inr (by simp)
  · exact .inl (by simp)

theorem exists_of_mem_toLowerAfter {c : Char} {before : Text} (h : c ∈ toLowerAfter before s) :
    ∃ d ∈ s, ∃ x y, c ∈ lowerIn x d y := by
  induction s generalizing before with
  | nil => cases h
  | cons d s ih =>
    rcases List.mem_append.1 h with here | later
    · exact ⟨d, List.mem_cons_self, _, _, here⟩
    · obtain ⟨e, member, form⟩ := ih later
      exact ⟨e, List.mem_cons_of_mem _ member, form⟩

/-- No sigma comes from the first 128 characters. -/
theorem sigma_notMem_toLower (ascii : ∀ c ∈ s, c.toNat < 128) :
    'σ' ∉ toLower s ∧ 'ς' ∉ toLower s := by
  have letters : ∀ n < 128, lowerChar (.ofNat n) ≠ 'σ' ∧ lowerChar (.ofNat n) ≠ 'ς' := by
    decide +kernel
  have form {c : Char} (h : c ∈ toLower s) : c ≠ 'σ' ∧ c ≠ 'ς' := by
    obtain ⟨d, member, x, y, here⟩ := exists_of_mem_toLowerAfter h
    have small := ascii d member
    have plain : d ≠ 'Σ' := by
      rintro rfl
      revert small
      decide
    have undotted : d ≠ 'İ' := by
      rintro rfl
      revert small
      decide
    rw [lowerIn, if_neg plain, if_neg undotted, List.mem_singleton] at here
    rw [here, ← Char.ofNat_toNat d]
    exact letters _ small
  exact ⟨fun h => (form h).1 rfl, fun h => (form h).2 rfl⟩

end Text
end BlockCanvas
