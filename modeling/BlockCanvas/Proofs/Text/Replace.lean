import BlockCanvas.Proofs.Text.Search

/-!
# Texts put in the places of another

A replacement goes from left to right and does not look at what it has put in.
-/

namespace BlockCanvas
namespace Text

variable {old new s a b : Text} {c : Char}

theorem splitAll_ne_nil (sep s : Text) : splitAll sep s ≠ [] := by
  unfold splitAll
  split
  · exact List.cons_ne_nil _ _
  · split
    · exact List.cons_ne_nil _ _
    · exact List.cons_ne_nil _ _

theorem replaceAll_of_splitOnce_none (new : Text) (h : splitOnce old s = none) :
    replaceAll old new s = s := by
  rw [replaceAll, splitAll]
  split
  · exact List.intercalate_singleton
  · split
    · exact List.intercalate_singleton
    · next found => rw [h] at found; cases found

theorem replaceAll_of_splitOnce (hs : old ≠ []) (new : Text)
    (h : splitOnce old s = some (a, b)) :
    replaceAll old new s = a ++ new ++ replaceAll old new b := by
  rw [replaceAll, splitAll, dif_neg hs]
  split
  · next missing => rw [h] at missing; cases missing
  · next piece rest found =>
    rw [h] at found
    cases found
    obtain ⟨next, pieces, he⟩ := List.exists_cons_of_ne_nil (splitAll_ne_nil old b)
    rw [replaceAll, he, List.intercalate_cons_cons, List.append_assoc]

theorem replaceAll_nil (hs : old ≠ []) (new : Text) : replaceAll old new [] = [] :=
  replaceAll_of_splitOnce_none new (by rw [splitOnce, if_neg hs])

theorem replaceAll_self_append (hs : old ≠ []) (new s : Text) :
    replaceAll old new (old ++ s) = new ++ replaceAll old new s := by
  rw [replaceAll_of_splitOnce hs new (splitOnce_self_append hs s), List.nil_append]

theorem replaceAll_cons_of_not_start (new : Text) (h : ¬ old <+: c :: s) :
    replaceAll old new (c :: s) = c :: replaceAll old new s := by
  have hs : old ≠ [] := by
    rintro rfl
    exact h List.nil_prefix
  have passed := splitOnce_cons_of_not_start h
  cases found : splitOnce old s with
  | none =>
    rw [found] at passed
    rw [replaceAll_of_splitOnce_none new passed, replaceAll_of_splitOnce_none new found]
  | some p =>
    rw [found] at passed
    rw [replaceAll_of_splitOnce hs new passed, replaceAll_of_splitOnce hs new found]
    rfl

/-- A replacement passes over a text in which no place starts. -/
theorem replaceAll_append_of_not_start (new : Text)
    (h : ∀ t, t <:+ a → t ≠ [] → ¬ old <+: t ++ s) :
    replaceAll old new (a ++ s) = a ++ replaceAll old new s := by
  induction a with
  | nil => rfl
  | cons c a ih =>
    have here : ¬ old <+: c :: (a ++ s) := h (c :: a) List.suffix_rfl (List.cons_ne_nil c a)
    rw [List.cons_append, replaceAll_cons_of_not_start new here,
      ih fun t inside => h t (inside.trans (List.suffix_cons c a)), List.cons_append]

theorem replaceAll_append_of_notMem (new : Text) (h : c ∉ a) (s : Text) :
    replaceAll (c :: old) new (a ++ s) = a ++ replaceAll (c :: old) new s := by
  refine replaceAll_append_of_not_start new fun t inside some start => ?_
  obtain ⟨d, t, rfl⟩ := List.exists_cons_of_ne_nil some
  obtain ⟨rfl, -⟩ := List.cons_prefix_cons.1 start
  exact h (inside.subset List.mem_cons_self)

/-- A text that starts with a character and does not hold it again does not stand across another
place of the character. -/
theorem prefix_of_prefix_append_cons (h : c ∉ old) {t : Text}
    (found : c :: old <+: s ++ c :: t) (some : s ≠ []) : c :: old <+: s := by
  obtain ⟨d, s, rfl⟩ := List.exists_cons_of_ne_nil some
  obtain ⟨rfl, later⟩ := List.cons_prefix_cons.1 found
  rw [List.cons_prefix_cons]
  refine ⟨rfl, ?_⟩
  rcases prefix_append_cases later with inside | ⟨more, rfl, across⟩
  · exact inside
  · rcases List.prefix_cons_iff.1 across with rfl | ⟨more, rfl, -⟩
    · rw [List.append_nil]
    · exact absurd (List.mem_append_right s List.mem_cons_self) h

/-- So a replacement before a place of the character does not depend on what follows. -/
theorem replaceAll_append_cons (new : Text) (h : c ∉ old) (s t : Text) :
    replaceAll (c :: old) new (s ++ c :: t) =
      replaceAll (c :: old) new s ++ replaceAll (c :: old) new (c :: t) := by
  induction hn : s.length using Nat.strongRecOn generalizing s with
  | _ n ih =>
    cases s with
    | nil => rw [replaceAll_nil (List.cons_ne_nil _ _)]; rfl
    | cons d s =>
      by_cases start : c :: old <+: d :: s
      · obtain ⟨rest, hr⟩ := start
        have shorter : rest.length < n := by
          rw [← hn, ← hr]
          simp only [List.length_append, List.length_cons]
          omega
        rw [← hr, List.append_assoc, replaceAll_self_append (List.cons_ne_nil _ _),
          replaceAll_self_append (List.cons_ne_nil _ _), ih _ shorter rest rfl, List.append_assoc]
      · have start' : ¬ c :: old <+: d :: (s ++ c :: t) := fun found =>
          start (prefix_of_prefix_append_cons h found (List.cons_ne_nil d s))
        rw [List.cons_append, replaceAll_cons_of_not_start new start',
          replaceAll_cons_of_not_start new start, ih s.length (by rw [← hn]; simp) s rfl,
          List.cons_append]

theorem replaceAll_same (s : Text) : replaceAll old old s = s := by
  by_cases hs : old = []
  · subst hs
    rw [replaceAll, splitAll, dif_pos rfl, List.intercalate_singleton]
  · induction hn : s.length using Nat.strongRecOn generalizing s with
    | _ n ih =>
      cases found : splitOnce old s with
      | none => exact replaceAll_of_splitOnce_none old found
      | some p =>
        have shorter := length_lt_of_splitOnce hs found
        rw [replaceAll_of_splitOnce hs old found, ih _ (hn ▸ shorter) p.2 rfl]
        exact (splitOnce_append found).symm

/-- Each place that is filled changes the length by the same amount. -/
theorem length_replaceAll (old new s : Text) :
    ∃ k, (replaceAll old new s).length + k * old.length = s.length + k * new.length := by
  by_cases hs : old = []
  · subst hs
    refine ⟨0, ?_⟩
    rw [replaceAll, splitAll, dif_pos rfl, List.intercalate_singleton]
    simp
  · induction hn : s.length using Nat.strongRecOn generalizing s with
    | _ n ih =>
      cases found : splitOnce old s with
      | none => exact ⟨0, by rw [replaceAll_of_splitOnce_none new found, hn]; simp⟩
      | some p =>
        obtain ⟨k, hk⟩ := ih _ (hn ▸ length_lt_of_splitOnce hs found) p.2 rfl
        refine ⟨k + 1, ?_⟩
        have whole := congrArg List.length (splitOnce_append found)
        rw [replaceAll_of_splitOnce hs new found]
        simp only [List.length_append, Nat.add_mul, Nat.one_mul] at whole ⊢
        omega

/-- Another text in a place changes the whole. -/
theorem replaceAll_ne (hs : old ≠ []) (other : new ≠ old) (h : old <:+: s) :
    replaceAll old new s ≠ s := by
  intro same
  cases found : splitOnce old s with
  | none => exact splitOnce_eq_none_iff.1 found h
  | some p =>
    have whole := splitOnce_append found
    rw [replaceAll_of_splitOnce hs new found, whole, List.append_assoc, List.append_assoc,
      List.append_cancel_left_eq] at same
    obtain ⟨k, hk⟩ := length_replaceAll old new p.2
    have lengths := congrArg List.length same
    simp only [List.length_append] at lengths
    have equal : (k + 1) * new.length = (k + 1) * old.length := by
      simp only [Nat.add_mul, Nat.one_mul]
      omega
    exact other (List.append_inj same (Nat.eq_of_mul_eq_mul_left (Nat.succ_pos k) equal)).1

end Text
end BlockCanvas
