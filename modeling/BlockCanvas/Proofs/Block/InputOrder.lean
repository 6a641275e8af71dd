import Mathlib.Data.List.Nodup
import Mathlib.Data.List.Perm.Subperm
import BlockCanvas.Proofs.Block.Filling

/-!
# The order of the inputs

The order in which the inputs of a block are listed matters only through braces in the texts that
they put in.  `Input.Separate` says which texts may be put in: no texts of other inputs form the
placeholder of an input, unless that input puts in this very placeholder.  Main statement:
`render_perm_iff`, with such inputs the order makes no difference in any flat template, and with
all others it makes one in some flat template.
-/

namespace BlockCanvas

open Text (BraceFree Closed)

namespace Input

/-- No texts of other inputs form the placeholder of an input, unless that changes nothing. -/
def Separate (inputs : List Input) : Prop :=
  ∀ j ∈ inputs, ¬ j.Idle → ∀ a ∈ inputs, a.id ≠ j.id → ∀ c ∈ inputs, c.id ≠ j.id →
    ¬ Forms j.id a.contribution c.contribution

/-- Where each text closes its braces, only the placeholders that stand in a text matter. -/
theorem separate_of_closed {inputs : List Input} (ids : ∀ i ∈ inputs, BraceFree i.id)
    (closed : ∀ i ∈ inputs, Closed i.contribution)
    (absent : ∀ j ∈ inputs, ¬ j.Idle → ∀ a ∈ inputs, a.id ≠ j.id →
      ¬ placeholder j.id <:+: a.contribution) : Separate inputs :=
  fun j hj busy a ha other _ _ _ =>
    not_forms_of_closed (ids j hj).2 (closed a ha) (absent j hj busy a ha other)

section Distinct

variable {inputs inputs' : List Input} (distinct : (inputs.map Input.id).Nodup)
include distinct

theorem find?_id_eq_some_iff {name : Text} {i : Input} :
    inputs.find? (fun i => i.id == name) = some i ↔ i ∈ inputs ∧ i.id = name := by
  constructor
  · intro found
    exact ⟨List.mem_of_find?_eq_some found, by simpa using List.find?_some found⟩
  · rintro ⟨hi, rfl⟩
    have some : (inputs.find? fun k => k.id == i.id).isSome :=
      List.find?_isSome.2 ⟨i, hi, beq_self_eq_true i.id⟩
    obtain ⟨k, found⟩ := Option.isSome_iff_exists.1 some
    have same : k.id = i.id := by simpa using List.find?_some found
    rw [found, List.inj_on_of_nodup_map distinct (List.mem_of_find?_eq_some found) hi same]

theorem find?_id_of_perm (perm : inputs'.Perm inputs) (name : Text) :
    inputs'.find? (fun i => i.id == name) = inputs.find? fun i => i.id == name := by
  have distinct' := (perm.map Input.id).nodup_iff.2 distinct
  refine Option.ext fun i => ?_
  rw [find?_id_eq_some_iff distinct, find?_id_eq_some_iff distinct', perm.mem_iff]

theorem filled_of_perm (perm : inputs'.Perm inputs) :
    Segment.filled inputs' = Segment.filled inputs := by
  funext part
  cases part with
  | plain text free => rfl
  | hole name free => rw [Segment.filled, Segment.filled, find?_id_of_perm distinct perm]

theorem Separate.filledApart (h : Separate inputs) (perm : inputs'.Perm inputs) :
    Block.FilledApart inputs' := by
  intro done j start
  have mem {i : Input} (hi : i ∈ done ++ [j]) : i ∈ inputs := perm.subset (start.subset hi)
  have apart : ∀ i ∈ done, i.id ≠ j.id := by
    have nodup := ((perm.map Input.id).nodup_iff.2 distinct).sublist (start.sublist.map Input.id)
    rw [List.map_append, List.nodup_append] at nodup
    exact fun i hi => nodup.2.2 _ (List.mem_map_of_mem hi) _ (by simp)
  by_cases idle : j.Idle
  · exact .inl idle
  · refine .inr fun a ha c hc => ?_
    exact h j (mem (by simp)) idle a (mem (by simp [ha])) (apart a ha) c (mem (by simp [hc]))
      (apart c hc)

end Distinct

end Input

namespace Block
open Input Segment

theorem render_perm_of_separate {inputs inputs' : List Input}
    (ids : ∀ i ∈ inputs, BraceFree i.id) (distinct : (inputs.map Input.id).Nodup)
    (h : Separate inputs) (perm : inputs'.Perm inputs) (b : Block) {parts : List Segment}
    (present : b.template = some (flatTemplate parts)) :
    ({ b with inputs := inputs' } : Block).render =
      ({ b with inputs := inputs } : Block).render := by
  have empty : inputs' = [] ↔ inputs = [] := by
    rw [← List.length_eq_zero_iff, perm.length_eq, List.length_eq_zero_iff]
  have ids' : ∀ i ∈ inputs', BraceFree i.id := fun i hi => ids i (perm.subset hi)
  rw [render_of_template { b with inputs := inputs' } present,
    render_of_template { b with inputs := inputs } present]
  simp only [empty]
  rw [fill_flatTemplate ids (h.filledApart distinct (.refl _)),
    fill_flatTemplate ids' (h.filledApart distinct perm), filled_of_perm distinct perm]

/-! ### Texts that form a placeholder -/

theorem fill_append (template : Text) (first second : List Input) :
    fill template (first ++ second) = fill (fill template first) second :=
  List.foldl_append

theorem fill_singleton (template : Text) (i : Input) :
    fill template [i] = Text.replaceAll (placeholder i.id) i.contribution template := rfl

theorem fill_flatTemplate_singleton {i : Input} (id : BraceFree i.id) (parts : List Segment) :
    fill (flatTemplate parts) [i] = parts.flatMap (filled [i]) := by
  rw [flatTemplate, ← filled_nil, fill_singleton, replaceAll_filled id (by simp), List.nil_append]

/-- Inputs whose placeholders do not stand in a template change nothing. -/
theorem fill_of_absent {others : List Input} {parts : List Segment}
    (ids : ∀ i ∈ others, BraceFree i.id)
    (absent : ∀ i ∈ others, ∀ part ∈ parts, part.filled [i] = part.text) :
    fill (flatTemplate parts) others = flatTemplate parts := by
  induction others with
  | nil => rfl
  | cons i others ih =>
    have first : fill (flatTemplate parts) [i] = flatTemplate parts := by
      rw [fill_flatTemplate_singleton (ids i List.mem_cons_self), flatTemplate]
      exact List.flatMap_congr (absent i List.mem_cons_self)
    rw [← List.singleton_append, fill_append, first]
    exact ih (fun k hk => ids k (List.mem_cons_of_mem i hk)) fun k hk =>
      absent k (List.mem_cons_of_mem i hk)

/-- Some of the inputs can be put last. -/
theorem exists_perm_append {inputs front : List Input} (nodup : front.Nodup)
    (inside : front ⊆ inputs) : ∃ others, (others ++ front).Perm inputs := by
  obtain ⟨l, hl, sub⟩ := List.subperm_of_subset nodup inside
  obtain ⟨others, perm⟩ := sub.exists_perm_append
  exact ⟨others, (List.perm_append_comm.trans (hl.symm.append_right others)).trans perm.symm⟩

theorem filled_of_ne {i : Input} {name : Text} (other : i.id ≠ name) (free : BraceFree name) :
    (hole name free).filled [i] = (hole name free).text := by
  simp [filled, Segment.text, other]

/-- If the order does not matter, then what other inputs make of a template without the
placeholder of an input has no place of that placeholder either. -/
theorem not_infix_of_perm {inputs front : List Input} {parts : List Segment} {j : Input}
    (ids : ∀ i ∈ inputs, BraceFree i.id) (distinct : inputs.Nodup)
    (same : ∀ inputs', inputs'.Perm inputs →
      fill (flatTemplate parts) inputs' = fill (flatTemplate parts) inputs)
    (nodup : front.Nodup) (inside : front ⊆ inputs)
    (absent : ∀ i ∈ inputs, i ∉ front → ∀ part ∈ parts, part.filled [i] = part.text)
    (hj : j ∈ inputs) (last : j ∉ front) (busy : ¬ j.Idle) :
    ¬ placeholder j.id <:+: fill (flatTemplate parts) front := by
  intro place
  have front_nodup : (front ++ [j]).Nodup :=
    nodup.append (List.nodup_singleton j) (List.disjoint_singleton.2 last)
  obtain ⟨others, perm⟩ := exists_perm_append front_nodup
    (List.append_subset.2 ⟨inside, by simpa using hj⟩)
  have clear : fill (flatTemplate parts) others = flatTemplate parts := by
    have apart := (List.nodup_append.1 (perm.nodup_iff.2 distinct)).2.2
    refine fill_of_absent (fun i hi => ids i (perm.subset (by simp [hi]))) fun i hi => ?_
    refine absent i (perm.subset (by simp [hi])) fun again => ?_
    exact apart i hi i (by simp [again]) rfl
  have unused : fill (flatTemplate parts) [j] = flatTemplate parts :=
    fill_of_absent (by simpa using ids j hj) (by simpa using absent j hj last)
  have swapped : (others ++ ([j] ++ front)).Perm inputs :=
    (List.perm_append_comm.append_left others).trans perm
  have equal := (same _ perm).trans (same _ swapped).symm
  rw [fill_append, fill_append, fill_append, fill_append, clear, unused, fill_singleton] at equal
  exact Text.replaceAll_ne (List.cons_ne_nil _ _) busy place equal

/-- A place at the end is filled in, whatever is before the last open brace. -/
theorem replaceAll_placeholder_end {name w : Text} (free : BraceFree name) (inner : BraceFree w)
    (new before : Text) :
    Text.replaceAll (placeholder name) new (before ++ '\x7b' :: (w ++ placeholder name)) =
      Text.replaceAll (placeholder name) new before ++ '\x7b' :: (w ++ new) := by
  have here : ¬ placeholder name <+: '\x7b' :: (w ++ placeholder name) := by
    intro start
    obtain ⟨-, closing⟩ := List.cons_prefix_cons.1 start
    rcases Text.concat_prefix_append_cases closing with inside | ⟨rest, rfl, later⟩
    · exact inner.2 (inside.subset (by simp))
    · cases rest with
      | nil => exact absurd (List.cons_prefix_cons.1 later).1 (by decide)
      | cons d rest =>
        obtain ⟨rfl, -⟩ := List.cons_prefix_cons.1 later
        exact free.1 (List.mem_append_right w List.mem_cons_self)
  have once : '\x7b' ∉ name ++ ['\x7d'] := by simpa using free.1
  have some : placeholder name ≠ [] := List.cons_ne_nil _ _
  have last : Text.replaceAll (placeholder name) new (placeholder name) = new := by
    have whole := Text.replaceAll_self_append some new []
    rwa [List.append_nil, Text.replaceAll_nil some, List.append_nil] at whole
  have cut : Text.replaceAll (placeholder name) new (before ++ '\x7b' :: (w ++ placeholder name)) =
      Text.replaceAll (placeholder name) new before ++
        Text.replaceAll (placeholder name) new ('\x7b' :: (w ++ placeholder name)) :=
    Text.replaceAll_append_cons new once before _
  have passed : Text.replaceAll (placeholder name) new (w ++ placeholder name) =
      w ++ Text.replaceAll (placeholder name) new (placeholder name) :=
    Text.replaceAll_append_of_notMem new inner.1 _
  rw [cut, Text.replaceAll_cons_of_not_start new here, passed, last]

theorem placeholder_infix {x y z s t : Text} (opening : '\x7b' :: x <:+ s)
    (closing : z ++ ['\x7d'] <+: t) : placeholder (x ++ y ++ z) <:+: s ++ (y ++ t) := by
  obtain ⟨u, rfl⟩ := opening
  obtain ⟨v, rfl⟩ := closing
  exact ⟨u, v, by simp [placeholder]⟩

/-- The template with the placeholders of two inputs and a text between them. -/
def pairParts {inputs : List Input} (ids : ∀ i ∈ inputs, BraceFree i.id) {a c : Input}
    (ha : a ∈ inputs) (hc : c ∈ inputs) {y : Text} (free : BraceFree y) : List Segment :=
  [.hole a.id (ids a ha), .plain y free, .hole c.id (ids c hc)]

section Pair

variable {inputs : List Input} (ids : ∀ i ∈ inputs, BraceFree i.id)
  (distinct : (inputs.map Input.id).Nodup) {a c : Input} (ha : a ∈ inputs) (hc : c ∈ inputs)
  {y : Text} (free : BraceFree y)
include distinct

theorem not_infix_pairParts
    (same : ∀ inputs', inputs'.Perm inputs →
      fill (flatTemplate (pairParts ids ha hc free)) inputs' =
        fill (flatTemplate (pairParts ids ha hc free)) inputs)
    {j : Input} (hj : j ∈ inputs) (busy : ¬ j.Idle) (aj : a.id ≠ j.id) (cj : c.id ≠ j.id)
    {front : List Input} (nodup : front.Nodup) (pair : ∀ i, i ∈ front ↔ i = a ∨ i = c) :
    ¬ placeholder j.id <:+: fill (flatTemplate (pairParts ids ha hc free)) front := by
  refine not_infix_of_perm ids (.of_map _ distinct) same nodup ?_ ?_ hj ?_ busy
  · intro i hi
    rcases (pair i).1 hi with rfl | rfl <;> assumption
  · intro i hi outside part hp
    have apart {k : Input} (hk : k ∈ inputs) (inFront : k ∈ front) : i.id ≠ k.id := fun e =>
      outside (List.inj_on_of_nodup_map distinct hi hk e ▸ inFront)
    simp only [pairParts, List.mem_cons, List.not_mem_nil, or_false] at hp
    rcases hp with rfl | rfl | rfl
    · exact filled_of_ne (apart ha ((pair a).2 (.inl rfl))) _
    · rfl
    · exact filled_of_ne (apart hc ((pair c).2 (.inr rfl))) _
  · intro hjf
    rcases (pair j).1 hjf with rfl | rfl <;> contradiction

/-- What is made up by the texts of two inputs is there when both are put in. -/
theorem infix_fill_pairParts {x z : Text} (free' : BraceFree x)
    (opening : '\x7b' :: x <:+ a.contribution) (closing : z ++ ['\x7d'] <+: c.contribution) :
    placeholder (x ++ y ++ z) <:+:
      fill (flatTemplate (pairParts ids ha hc free)) (if a = c then [a] else [a, c]) := by
  split
  case isTrue equal =>
    subst equal
    rw [fill_flatTemplate_singleton (ids a ha)]
    simp only [pairParts, List.flatMap_cons, List.flatMap_nil, filled, List.find?_cons,
      beq_self_eq_true, List.append_nil]
    exact placeholder_infix opening closing
  case isFalse different =>
    have other : a.id ≠ c.id := fun e => different (List.inj_on_of_nodup_map distinct ha hc e)
    obtain ⟨u, hu⟩ := opening
    have first : (pairParts ids ha hc free).flatMap (filled [a]) =
        u ++ '\x7b' :: ((x ++ y) ++ placeholder c.id) := by
      simp [pairParts, filled, other, ← hu]
    have shape (before : Text) : before ++ '\x7b' :: (x ++ y ++ c.contribution) =
        (before ++ '\x7b' :: x) ++ (y ++ c.contribution) := by simp
    rw [show [a, c] = [a] ++ [c] from rfl, fill_append, fill_flatTemplate_singleton (ids a ha),
      first, fill_singleton,
      replaceAll_placeholder_end (ids c hc) (Text.braceFree_append.2 ⟨free', free⟩), shape]
    exact placeholder_infix (List.suffix_append _ _) closing

end Pair

/-- Texts that form a placeholder do so in a template with the placeholders of their inputs, which
then depends on the order. -/
theorem separate_of_perm {inputs : List Input} (ids : ∀ i ∈ inputs, BraceFree i.id)
    (distinct : (inputs.map Input.id).Nodup)
    (same : ∀ parts, flatTemplate parts ≠ [] → ∀ inputs', inputs'.Perm inputs →
      fill (flatTemplate parts) inputs' = fill (flatTemplate parts) inputs) :
    Separate inputs := by
  rintro j hj busy a ha aj c hc cj (whole | ⟨x, y, z, name, opening, closing⟩)
  · have none : BraceFree [] := ⟨List.not_mem_nil, List.not_mem_nil⟩
    refine not_infix_pairParts ids distinct ha ha none (same _ (List.cons_ne_nil _ _)) hj busy aj aj
      (List.nodup_singleton a) (by simp) ?_
    rw [fill_flatTemplate_singleton (ids a ha)]
    simp only [pairParts, List.flatMap_cons, filled, List.find?_cons, beq_self_eq_true]
    exact List.infix_append_of_infix_left whole
  · have parts := Text.braceFree_append.1 (name ▸ ids j hj)
    obtain ⟨outer, inner⟩ := Text.braceFree_append.1 parts.1
    have place := infix_fill_pairParts ids distinct ha hc inner outer opening closing
    rw [← name] at place
    refine not_infix_pairParts ids distinct ha hc inner (same _ (List.cons_ne_nil _ _)) hj busy aj
      cj ?_ (fun i => ?_) place
    · split <;> simp_all
    · split <;> simp_all

/-- The order of inputs with distinct ids never matters in a flat template exactly if their texts
are separate. -/
theorem render_perm_iff {inputs : List Input} (ids : ∀ i ∈ inputs, BraceFree i.id)
    (distinct : (inputs.map Input.id).Nodup) :
    Separate inputs ↔ ∀ (b : Block) (parts : List Segment),
      b.template = some (flatTemplate parts) → ∀ inputs', inputs'.Perm inputs →
        ({ b with inputs := inputs' } : Block).render =
          ({ b with inputs := inputs } : Block).render := by
  constructor
  · exact fun h b parts present inputs' perm =>
      render_perm_of_separate ids distinct h perm b present
  · intro same
    by_cases none : inputs = []
    · rw [none]
      exact fun j hj => absurd hj List.not_mem_nil
    refine separate_of_perm ids distinct fun parts some inputs' perm => ?_
    have none' : inputs' ≠ [] := fun e => none (List.perm_nil.1 (e ▸ perm.symm))
    have equal := same (ofTemplate (flatTemplate parts) []) parts rfl inputs' perm
    rw [render_of_template { ofTemplate (flatTemplate parts) [] with inputs := inputs' } rfl,
      render_of_template { ofTemplate (flatTemplate parts) [] with inputs := inputs } rfl] at equal
    rwa [if_neg (not_or.2 ⟨some, none'⟩), if_neg (not_or.2 ⟨some, none⟩)] at equal

/-- A dictionary with a placeholder, an input that is its own placeholder, and a closing brace. -/
def bracedInputs : List Input :=
  [⟨['k'], [], .any, some "\x7b\"n\": \x7bn\x7d\x7d".toList⟩,
    ⟨['n'], [], .any, some "\x7bn\x7d".toList⟩, ⟨['m'], [], .any, some "\x7d".toList⟩]

def bracedParts : List Segment :=
  [.hole ['m'] (by decide), .hole ['k'] (by decide), .plain " ".toList (by decide),
    .hole ['n'] (by decide), .hole ['m'] (by decide)]

theorem render_perm_iff_braced :
    ((∀ i ∈ bracedInputs, BraceFree i.id) ∧ (bracedInputs.map Input.id).Nodup) ∧
      Separate bracedInputs ∧
      ({ ofTemplate (flatTemplate bracedParts) [] with inputs := bracedInputs.reverse }).render =
        ({ ofTemplate (flatTemplate bracedParts) [] with inputs := bracedInputs }).render ∧
      ({ ofTemplate (flatTemplate bracedParts) [] with inputs := bracedInputs }).render =
        "\x7d\x7b\"n\": \x7bn\x7d\x7d \x7bn\x7d\x7d".toList := by
  have ids : ∀ i ∈ bracedInputs, BraceFree i.id := by decide
  have distinct : (bracedInputs.map Input.id).Nodup := by decide
  have separate : Separate bracedInputs :=
    separate_of_closed ids (by decide +kernel) (by decide +kernel)
  exact ⟨⟨ids, distinct⟩, separate,
    (render_perm_iff ids distinct).1 separate _ bracedParts rfl _ (List.reverse_perm _),
    by decide +kernel⟩

/-- With the value `{b}` of `a` and the value `x` of `b` the template `{a}` becomes `x` if `a` comes
first, and `{b}` if it does not. -/
theorem not_render_perm :
    ¬ ∀ (b : Block) (parts : List Segment), b.template = some (flatTemplate parts) →
      (b.inputs.map Input.id).Nodup → (∀ i ∈ b.inputs, BraceFree i.id) →
      ∀ inputs', inputs'.Perm b.inputs →
        ({ b with inputs := inputs' } : Block).render = b.render := by
  intro h
  let a : Input := ⟨['a'], [], .any, some "\x7bb\x7d".toList⟩
  let b : Input := ⟨['b'], [], .any, some ['x']⟩
  have same := h { ofTemplate "\x7ba\x7d".toList [] with inputs := [a, b] }
    [.hole ['a'] (by decide)] rfl (by decide) (by decide) [b, a] (.swap ..)
  exact absurd same (by decide +kernel)

end Block
end BlockCanvas
