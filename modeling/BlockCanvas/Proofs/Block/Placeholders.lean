import Mathlib.Data.List.Infix
import BlockCanvas.Block.Fragment
import BlockCanvas.Proofs.Text.Search

/-!
# Placeholders that no input provides

The scan of a template pairs an opening brace with the next closing one and goes on after it.  So
it comes to a placeholder exactly if each opening brace before it is closed before it
(`readAfter_iff`): in `{a} {b}` it comes to both, in `{a {b}` to none.

`InOrder` says that a list of names is that of all names with a place, each once and in the order
of their first places.  Main statement: `unmatchedPlaceholders_inOrder`.
-/

namespace BlockCanvas
namespace Text

/-! ### Braces -/

/-- Every opening brace of the text is followed by a closing one. -/
def Closed (s : Text) : Prop := ∀ t, '\x7b' :: t <:+ s → '\x7d' ∈ t

/-- No opening brace stands where an earlier one is still open. -/
def Unnested (s : Text) : Prop := ∀ before, before ++ ['\x7b'] <+: s → Closed before

instance : DecidablePred Closed := fun s =>
  decidable_of_iff (∀ tail ∈ s.tails, ['\x7b'] <+: tail → '\x7d' ∈ tail) <| by
    constructor
    · intro h t inside
      have found := h _ ((List.mem_tails _ _).2 inside) ⟨t, rfl⟩
      simpa using found
    · rintro h tail inside ⟨t, rfl⟩
      exact List.mem_cons_of_mem _ (h t ((List.mem_tails _ _).1 inside))

instance : DecidablePred Unnested := fun s =>
  decidable_of_iff (∀ before ∈ s.inits, before ++ ['\x7b'] <+: s → Closed before) <| by
    constructor
    · intro h before start
      exact h before ((List.mem_inits _ _).2 ((List.prefix_append before _).trans start)) start
    · exact fun h before _ => h before

namespace Closed

variable {a b : Text}

theorem of_notMem (h : '\x7b' ∉ a) : Closed a :=
  fun _ inside => absurd (inside.subset List.mem_cons_self) h

theorem of_append (h : Closed (a ++ b)) : Closed b :=
  fun t inside => h t (inside.trans (List.suffix_append a b))

/-- A closing brace closes all braces before it. -/
theorem append_close (h : Closed b) (a : Text) : Closed (a ++ '\x7d' :: b) := by
  rintro t ⟨u, whole⟩
  rcases List.append_eq_append_iff.1 whole with ⟨v, rfl, later⟩ | ⟨v, rfl, later⟩
  · cases v with
    | nil => cases later
    | cons c v =>
      obtain ⟨-, rfl⟩ := List.cons.inj later
      exact List.mem_append_right v List.mem_cons_self
  · cases v with
    | nil => cases later
    | cons c v =>
      obtain ⟨-, rest⟩ := List.cons.inj later
      exact h t ⟨v, rest.symm⟩

theorem append_of_notMem (free : '\x7b' ∉ a) (h : Closed b) :
    Closed (a ++ b) := by
  induction a with
  | nil => exact h
  | cons c a ih =>
    intro t inside
    rcases List.suffix_cons_iff.1 inside with whole | inside
    · exact absurd (List.cons.inj whole).1 (List.ne_of_not_mem_cons free)
    · exact ih (List.not_mem_of_not_mem_cons free) t inside

end Closed

theorem unnested_nil : Unnested [] := fun before start => by simp at start

theorem Unnested.append_of_notMem {a s : Text} (free : '\x7b' ∉ a) (h : Unnested s) :
    Unnested (a ++ s) := by
  intro before start
  rcases concat_prefix_append_cases start with inside | ⟨u, rfl, later⟩
  · exact absurd (inside.subset (by simp)) free
  · exact (h u later).append_of_notMem free

theorem Unnested.placeholder_append {name s : Text} (free : '\x7b' ∉ name) (h : Unnested s) :
    Unnested (placeholder name ++ s) := by
  intro before start
  cases before with
  | nil => exact .of_notMem List.not_mem_nil
  | cons c before =>
    have shape : placeholder name ++ s = '\x7b' :: ((name ++ ['\x7d']) ++ s) := rfl
    rw [shape] at start
    obtain ⟨rfl, inner⟩ := List.cons_prefix_cons.1 start
    rcases concat_prefix_append_cases inner with inside | ⟨u, rfl, later⟩
    · have opened : '\x7b' ∈ name ++ ['\x7d'] := inside.subset (by simp)
      simp [free] at opened
    · rw [List.append_assoc, ← List.cons_append]
      exact (h u later).append_close _

end Text

open Text (Closed Unnested)

/-! ### Places of placeholders -/

/-- The placeholder of a name stands in a text, right after the text `before`. -/
def StandsAfter (s name before : Text) : Prop := before ++ placeholder name <+: s

instance (s name before : Text) : Decidable (StandsAfter s name before) :=
  inferInstanceAs (Decidable (_ <+: _))

/-- The names that have places after given texts, each once and in the order of their first
places. -/
structure InOrder (HasPlace : Text → Text → Prop) (names : List Text) : Prop where
  mem_iff : ∀ name, name ∈ names ↔ ∃ before, HasPlace name before
  nodup : names.Nodup
  pairwise : names.Pairwise fun m n =>
    ∃ u, HasPlace m u ∧ ∀ v, HasPlace n v → u.length < v.length

theorem append_placeholder_append (a name rest : Text) :
    a ++ placeholder name ++ rest = a ++ '\x7b' :: (name ++ '\x7d' :: rest) := by
  simp [placeholder]

theorem exists_of_standsAfter {s name before : Text} (h : StandsAfter s name before) :
    ∃ after, before ++ '\x7b' :: (name ++ '\x7d' :: after) = s := by
  obtain ⟨after, rfl⟩ := h
  exact ⟨after, (append_placeholder_append ..).symm⟩

namespace InOrder

variable {HasPlace HasPlace' : Text → Text → Prop} {names : List Text} {name first : Text}

theorem of_iff (h : InOrder HasPlace names) (same : ∀ n u, HasPlace n u ↔ HasPlace' n u) :
    InOrder HasPlace' names := by
  have equal : HasPlace = HasPlace' := funext₂ fun n u => propext (same n u)
  exact equal ▸ h

theorem nil (none : ∀ n u, ¬ HasPlace n u) : InOrder HasPlace [] where
  mem_iff n := by simpa using none n
  nodup := .nil
  pairwise := .nil

/-- The name with the first place of all comes first. -/
theorem cons (h : InOrder (fun n u => n ≠ name ∧ HasPlace n u) names)
    (here : HasPlace name first)
    (least : ∀ n u, n ≠ name → HasPlace n u → first.length < u.length) :
    InOrder HasPlace (name :: names) where
  mem_iff n := by
    rw [List.mem_cons, h.mem_iff]
    constructor
    · rintro (rfl | ⟨u, -, place⟩)
      · exact ⟨first, here⟩
      · exact ⟨u, place⟩
    · rintro ⟨u, place⟩
      by_cases same : n = name
      · exact .inl same
      · exact .inr ⟨u, same, place⟩
  nodup := by
    refine List.nodup_cons.2 ⟨fun again => ?_, h.nodup⟩
    obtain ⟨u, other, -⟩ := (h.mem_iff name).1 again
    exact other rfl
  pairwise := by
    refine List.pairwise_cons.2 ⟨fun n hn => ?_, ?_⟩
    · obtain ⟨u, other, -⟩ := (h.mem_iff n).1 hn
      exact ⟨first, here, fun v place => least n v other place⟩
    · refine h.pairwise.imp_of_mem fun {m n} _ hn => ?_
      rintro ⟨u, ⟨-, place⟩, before⟩
      obtain ⟨-, other, -⟩ := (h.mem_iff n).1 hn
      exact ⟨u, place, fun v there => before v ⟨other, there⟩⟩

/-- Places in the rest of a text are places in the text. -/
theorem shift (h : InOrder HasPlace names) (lead : Text)
    (moved : ∀ n u, HasPlace' n u ↔ ∃ v, u = lead ++ v ∧ HasPlace n v) :
    InOrder HasPlace' names where
  mem_iff n := by
    rw [h.mem_iff]
    constructor
    · rintro ⟨u, place⟩
      exact ⟨lead ++ u, (moved n _).2 ⟨u, rfl, place⟩⟩
    · rintro ⟨u, place⟩
      obtain ⟨v, -, there⟩ := (moved n u).1 place
      exact ⟨v, there⟩
  nodup := h.nodup
  pairwise := by
    refine h.pairwise.imp ?_
    rintro m n ⟨u, place, before⟩
    refine ⟨lead ++ u, (moved m _).2 ⟨u, rfl, place⟩, fun v there => ?_⟩
    obtain ⟨w, rfl, place'⟩ := (moved n v).1 there
    have := before w place'
    simp only [List.length_append]
    omega

end InOrder

namespace Block

/-! ### What the scan comes to -/

/-- A place of a placeholder that the scan of a text comes to: the braces before it are closed. -/
def ReadAfter (s name before : Text) : Prop :=
  Closed before ∧ '\x7d' ∉ name ∧ StandsAfter s name before

section Scan

variable {s a name rest : Text}

theorem not_readAfter_of_notMem (none : '\x7b' ∉ s) (name before : Text) :
    ¬ ReadAfter s name before := by
  rintro ⟨-, -, place⟩
  obtain ⟨after, rfl⟩ := exists_of_standsAfter place
  exact none (List.mem_append_right before List.mem_cons_self)

theorem not_readAfter_of_unclosed (first : '\x7b' ∉ a) (unclosed : '\x7d' ∉ rest)
    (name before : Text) : ¬ ReadAfter (a ++ '\x7b' :: rest) name before := by
  rintro ⟨closed, -, place⟩
  obtain ⟨after, whole⟩ := exists_of_standsAfter place
  rcases Text.eq_or_append_cons_of_notMem first whole with ⟨-, rfl⟩ | ⟨between, rfl, rfl⟩
  · exact unclosed (List.mem_append_right name List.mem_cons_self)
  · exact unclosed (List.mem_append_left _ (closed between ⟨a, rfl⟩))

/-- The scan comes to the first pair of braces, and then to what it comes to after that pair. -/
theorem readAfter_iff (first : '\x7b' ∉ a) (inside : '\x7d' ∉ name) (m before : Text) :
    ReadAfter (a ++ placeholder name ++ rest) m before ↔
      (m = name ∧ before = a) ∨
        ∃ u, before = a ++ placeholder name ++ u ∧ ReadAfter rest m u := by
  constructor
  · rintro ⟨closed, free, place⟩
    obtain ⟨after, whole⟩ := exists_of_standsAfter place
    rw [append_placeholder_append] at whole
    rcases Text.eq_or_append_cons_of_notMem first whole with ⟨rfl, same⟩ | ⟨between, rfl, later⟩
    · rcases Text.eq_or_append_cons_of_notMem inside same with ⟨rfl, -⟩ | ⟨u, rfl, -⟩
      · exact .inl ⟨rfl, rfl⟩
      · exact absurd (List.mem_append_right name List.mem_cons_self) free
    · -- the first brace is closed before the place, so the place is after the whole pair
      obtain ⟨v, u, rfl, start⟩ := List.eq_append_cons_of_mem (closed between ⟨a, rfl⟩)
      rw [List.append_assoc, List.cons_append] at later
      rcases Text.eq_or_append_cons_of_notMem start later with ⟨rfl, rfl⟩ | ⟨w, rfl, -⟩
      · rw [← append_placeholder_append] at closed
        exact .inr ⟨u, (append_placeholder_append ..).symm, closed.of_append, free, after,
          by simp [placeholder]⟩
      · exact absurd (List.mem_append_right v List.mem_cons_self) inside
  · rintro (⟨rfl, rfl⟩ | ⟨u, rfl, closed, free, after, rfl⟩)
    · exact ⟨.of_notMem first, inside, List.prefix_append _ _⟩
    · refine ⟨?_, free, after, by simp⟩
      have shape : a ++ placeholder name ++ u = (a ++ '\x7b' :: name) ++ '\x7d' :: u := by
        simp [placeholder]
      exact shape ▸ closed.append_close _

/-- With a test that fails for the name of the first pair only places after that pair are left. -/
theorem readAfter_rest_iff (first : '\x7b' ∉ a) (inside : '\x7d' ∉ name) {p : Text → Bool}
    (other : p name = false) (m before : Text) :
    (p m = true ∧ ReadAfter (a ++ placeholder name ++ rest) m before) ↔
      ∃ u, before = a ++ placeholder name ++ u ∧ p m = true ∧ ReadAfter rest m u := by
  rw [readAfter_iff first inside]
  constructor
  · rintro ⟨picked, ⟨rfl, -⟩ | ⟨u, rfl, place⟩⟩
    · rw [other] at picked
      cases picked
    · exact ⟨u, rfl, picked, place⟩
  · rintro ⟨u, rfl, picked, place⟩
    exact ⟨picked, .inr ⟨u, rfl, place⟩⟩

end Scan

/-- The names that are read and pass a test, without repetition, in the order of their places. -/
theorem inOrder_bracedNames (p : Text → Bool) (s : Text) :
    InOrder (fun name before => p name = true ∧ ReadAfter s name before)
      ((bracedNames s).filter p).eraseDups := by
  -- for all tests, since after a name is listed the rest is read with a test that this name fails
  fun_induction bracedNames s generalizing p with
  | case1 s noOpen =>
    have free := Text.splitOnce_singleton_eq_none_iff.1 noOpen
    exact .nil fun name before place => not_readAfter_of_notMem free name before place.2
  | case2 s a after opened unclosed =>
    obtain ⟨first, rfl⟩ := Text.splitOnce_singleton_eq_some_iff.1 opened
    have free := Text.splitOnce_singleton_eq_none_iff.1 unclosed
    exact .nil fun name before place => not_readAfter_of_unclosed first free name before place.2
  | case3 s a after opened name rest closed ih =>
    obtain ⟨first, rfl⟩ := Text.splitOnce_singleton_eq_some_iff.1 opened
    obtain ⟨inside, rfl⟩ := Text.splitOnce_singleton_eq_some_iff.1 closed
    rw [← append_placeholder_append]
    have later (q : Text → Bool) (other : q name = false) :
        InOrder (fun n u => q n = true ∧ ReadAfter (a ++ placeholder name ++ rest) n u)
          ((bracedNames rest).filter q).eraseDups :=
      (ih q).shift (a ++ placeholder name) (readAfter_rest_iff first inside other)
    cases picked : p name with
    | false =>
      rw [List.filter_cons_of_neg (by simp [picked])]
      exact later p picked
    | true =>
      rw [List.filter_cons_of_pos picked, List.eraseDups_cons, List.filter_filter]
      refine .cons ((later _ (by simp)).of_iff fun n u => ?_)
        ⟨picked, (readAfter_iff first inside name a).2 (.inl ⟨rfl, rfl⟩)⟩ fun n u other place => ?_
      · simp [and_assoc]
      · rcases (readAfter_iff first inside n u).1 place.2 with ⟨same, -⟩ | ⟨v, rfl, -⟩
        · exact absurd same other
        · simp [placeholder]

theorem close_notMem_of_isName {name : Text} (h : isName name = true) : '\x7d' ∉ name := by
  intro inside
  have all := (Bool.and_eq_true_iff.1 h).2
  cases List.all_eq_true.1 all _ inside

theorem readAfter_iff_standsAfter {s name : Text} (h : Unnested s) (free : '\x7d' ∉ name)
    (before : Text) : ReadAfter s name before ↔ StandsAfter s name before := by
  refine ⟨fun place => place.2.2, fun place => ⟨h before ?_, free, place⟩⟩
  obtain ⟨after, rfl⟩ := place
  exact ⟨name ++ '\x7d' :: after, by simp [placeholder]⟩

/-! ### The names that are listed -/

/-- A name that no input provides. -/
def Unprovided (b : Block) (name : Text) : Prop :=
  isName name = true ∧ ∀ i ∈ b.inputs, i.id ≠ name

theorem unprovided_iff (b : Block) (name : Text) :
    b.Unprovided name ↔ (isName name && (b.input? name).isNone) = true := by
  simp [Unprovided, input?]

/-- The placeholders of the warning, for every template: the names that no input provides and that
have a place where all braces before it are closed, each once and in the order of the first such
places.  Where no opening brace stands inside open ones these are all the places there are. -/
theorem unmatchedPlaceholders_inOrder (b : Block) (template : Text)
    (present : b.template = some template) :
    InOrder (fun name before =>
        b.Unprovided name ∧ Closed before ∧ StandsAfter template name before)
      b.unmatchedPlaceholders ∧
    (Unnested template →
      InOrder (fun name before => b.Unprovided name ∧ StandsAfter template name before)
        b.unmatchedPlaceholders) := by
  have read : InOrder (fun name before => b.Unprovided name ∧ ReadAfter template name before)
      b.unmatchedPlaceholders := by
    rw [unmatchedPlaceholders, present]
    exact (inOrder_bracedNames _ template).of_iff fun name before => by rw [unprovided_iff]
  refine ⟨read.of_iff fun name before => ?_, fun unnested => read.of_iff fun name before => ?_⟩
  · refine and_congr_right fun unprovided => ?_
    rw [ReadAfter, and_iff_right (close_notMem_of_isName unprovided.1)]
  · exact and_congr_right fun unprovided =>
      readAfter_iff_standsAfter unnested (close_notMem_of_isName unprovided.1) before

/-- A block with a template and with inputs of the given ids. -/
def ofTemplate (template : Text) (ids : List Text) : Block :=
  ⟨[], [], .io, [], [], [], .zero false, .zero false, some template,
    ids.map fun id => ⟨id, [], .any, none⟩, []⟩

/-- The first place of `a` is inside open braces. -/
def nestedBraces : Text := "\x7bx = \x7ba\x7d\x7bb\x7d\x7d\x7bc\x7d\x7ba\x7d\x7bd\x7d".toList

/-- Closing braces without opening ones, an empty pair and a brace that is never closed. -/
def strayBraces : Text := "\x7db\x7d = \x7bb\x7d\x7d + \x7b\x7d\x7ba\x7d \x7bb\x7d\x7b".toList

theorem unmatchedPlaceholders_inOrder_stray :
    Unnested strayBraces ∧
      (ofTemplate nestedBraces [['d']]).unmatchedPlaceholders = [['b'], ['c'], ['a']] ∧
      InOrder (fun name before => (ofTemplate nestedBraces [['d']]).Unprovided name ∧
          Closed before ∧ StandsAfter nestedBraces name before)
        (ofTemplate nestedBraces [['d']]).unmatchedPlaceholders ∧
      InOrder (fun name before => (ofTemplate strayBraces []).Unprovided name ∧
          StandsAfter strayBraces name before)
        (ofTemplate strayBraces []).unmatchedPlaceholders := by
  have unnested : Unnested strayBraces := by decide +kernel
  have names : (ofTemplate nestedBraces [['d']]).unmatchedPlaceholders =
      [['b'], ['c'], ['a']] := by decide +kernel
  exact ⟨unnested, names, (unmatchedPlaceholders_inOrder _ nestedBraces rfl).1,
    (unmatchedPlaceholders_inOrder _ strayBraces rfl).2 unnested⟩

/-- `d = {"k": {v}}`. -/
def dictionary : Text := "d = \x7b\"k\": \x7bv\x7d\x7d".toList

/-- The placeholder in a dictionary is not listed. -/
theorem not_unmatchedPlaceholders_inOrder :
    ¬ ∀ (b : Block) (template : Text), b.template = some template →
      InOrder (fun name before => b.Unprovided name ∧ StandsAfter template name before)
        b.unmatchedPlaceholders := by
  intro h
  have listed := h (ofTemplate dictionary []) dictionary rfl
  have place : StandsAfter dictionary ['v'] "d = \x7b\"k\": ".toList := by decide +kernel
  have present : ['v'] ∈ (ofTemplate dictionary []).unmatchedPlaceholders :=
    (listed.mem_iff ['v']).2 ⟨_, ⟨rfl, by decide⟩, place⟩
  have missed : (ofTemplate dictionary []).unmatchedPlaceholders = [] := by decide +kernel
  rw [missed] at present
  cases present

end Block
end BlockCanvas
