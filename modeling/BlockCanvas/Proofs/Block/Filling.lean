import BlockCanvas.Proofs.Block.Placeholders
import BlockCanvas.Proofs.Text.Replace

/-!
# Filling in a flat template

The inputs of a block are filled in one after the other, each in the whole text that there is by
then.  In a flat template, of placeholders and text without braces, this comes to filling in all at
once, unless the texts that are put in form a new placeholder: one may hold it, or the end of one
and the start of another may make it up (`Input.Forms`).  What is left over is then what the scan
for unmatched placeholders finds in the template.

Main statements: `fill_flatTemplate`, `render_flatTemplate`.
-/

namespace BlockCanvas
namespace Text

/-- A text without braces. -/
def BraceFree (s : Text) : Prop := '\x7b' ∉ s ∧ '\x7d' ∉ s

instance : DecidablePred BraceFree :=
  inferInstanceAs (DecidablePred fun s => '\x7b' ∉ s ∧ '\x7d' ∉ s)

theorem braceFree_append {a b : Text} : BraceFree (a ++ b) ↔ BraceFree a ∧ BraceFree b := by
  simp only [BraceFree, List.mem_append, not_or]
  tauto

end Text

open Text (BraceFree Closed Unnested)

/-! ### Flat templates -/

/-- A part of a flat template: text without braces, or the placeholder of a name without braces. -/
inductive Segment where
  | plain (text : Text) (braceFree : BraceFree text)
  | hole (name : Text) (braceFree : BraceFree name)

namespace Segment

def text : Segment → Text
  | plain text _ => text
  | hole name _ => placeholder name

/-- What a part becomes: in place of a placeholder the text of the first input whose id is its
name, all else as it is. -/
def filled (inputs : List Input) : Segment → Text
  | plain text _ => text
  | hole name _ =>
    match inputs.find? fun i => i.id == name with
    | some i => i.contribution
    | none => placeholder name

theorem filled_nil : filled [] = text := by
  funext part
  cases part <;> rfl

end Segment

/-- The text of a template that is made of the given parts. -/
def flatTemplate (parts : List Segment) : Text := parts.flatMap Segment.text

namespace Input

/-- The placeholder of `name` stands in the text `a`, or text without braces between `a` and `c`
completes it. -/
def Forms (name a c : Text) : Prop :=
  placeholder name <:+: a ∨
    ∃ x y z, name = x ++ y ++ z ∧ '\x7b' :: x <:+ a ∧ z ++ ['\x7d'] <+: c

/-- An input that puts in its own placeholder changes nothing. -/
def Idle (i : Input) : Prop := i.contribution = placeholder i.id

instance : DecidablePred Idle :=
  inferInstanceAs (DecidablePred fun i : Input => i.contribution = placeholder i.id)

end Input

namespace Segment
open Input

variable {done : List Input} {j : Input} {name : Text}

theorem eq_of_placeholder_start {m n rest : Text} (hm : '\x7d' ∉ m) (hn : '\x7d' ∉ n)
    (h : placeholder m <+: placeholder n ++ rest) : m = n := by
  obtain ⟨after, whole⟩ := h
  have tails : m ++ '\x7d' :: after = n ++ '\x7d' :: rest := by simpa [placeholder] using whole
  rcases Text.eq_or_append_cons_of_notMem hn tails with ⟨rfl, -⟩ | ⟨between, rfl, -⟩
  · rfl
  · exact absurd (List.mem_append_right n List.mem_cons_self) hm

/-- A name that starts before some parts and is closed in them is closed in a text that was put
in. -/
theorem exists_of_prefix_filled (braceFree : BraceFree name) {parts : List Segment}
    (start : name ++ ['\x7d'] <+: parts.flatMap (filled done)) :
    ∃ i ∈ done, ∃ y z, name = y ++ z ∧ z ++ ['\x7d'] <+: i.contribution := by
  induction parts generalizing name with
  | nil => simp at start
  | cons part parts ih =>
    rw [List.flatMap_cons] at start
    rcases Text.concat_prefix_append_cases start with inside | ⟨rest, rfl, later⟩
    · cases part with
      | plain text free => exact absurd (inside.subset (by simp)) free.2
      | hole n free =>
        rw [filled] at inside
        split at inside
        case h_1 i found => exact ⟨i, List.mem_of_find?_eq_some found, [], name, rfl, inside⟩
        case h_2 =>
          rw [placeholder] at inside
          cases name with
          | nil => exact absurd (List.cons_prefix_cons.1 inside).1 (by decide)
          | cons c name =>
            obtain ⟨rfl, -⟩ := List.cons_prefix_cons.1 inside
            exact absurd List.mem_cons_self braceFree.1
    · obtain ⟨i, hi, y, z, rfl, closing⟩ := ih (Text.braceFree_append.1 braceFree).2 later
      exact ⟨i, hi, part.filled done ++ y, z, (List.append_assoc ..).symm, closing⟩

/-- A placeholder that starts in a text that was put in is one of those that such texts form. -/
theorem exists_forms (braceFree : BraceFree name) {parts : List Segment} {a w : Text}
    (inside : '\x7b' :: w <:+ a)
    (start : name ++ ['\x7d'] <+: w ++ parts.flatMap (filled done)) :
    placeholder name <:+: a ∨ ∃ c ∈ done, Forms name a c.contribution := by
  rcases Text.concat_prefix_append_cases start with whole | ⟨rest, rfl, later⟩
  · refine .inl (List.IsInfix.trans ?_ inside.isInfix)
    exact (List.cons_prefix_cons.2 ⟨rfl, whole⟩).isInfix
  · obtain ⟨c, hc, y, z, rfl, closing⟩ :=
      exists_of_prefix_filled (Text.braceFree_append.1 braceFree).2 later
    exact .inr ⟨c, hc, .inr ⟨w, y, z, (List.append_assoc ..).symm, inside, closing⟩⟩

theorem filled_concat_of_some {i : Input} (found : done.find? (fun i => i.id == name) = some i)
    (free : BraceFree name) : (hole name free).filled (done ++ [j]) = i.contribution := by
  simp [filled, List.find?_append, found]

theorem filled_concat_of_none (missing : done.find? (fun i => i.id == name) = none)
    (free : BraceFree name) : (hole name free).filled (done ++ [j]) =
      if j.id = name then j.contribution else placeholder name := by
  by_cases same : j.id = name
  · simp [filled, List.find?_append, missing, same]
  · simp [filled, List.find?_append, missing, same]

/-- One more input fills in the placeholders of its id, if no texts that were put in form one. -/
theorem replaceAll_filled (braceFree : BraceFree j.id)
    (apart : ∀ a ∈ done, ∀ c ∈ done, ¬ Forms j.id a.contribution c.contribution)
    (parts : List Segment) :
    Text.replaceAll (placeholder j.id) j.contribution (parts.flatMap (filled done)) =
      parts.flatMap (filled (done ++ [j])) := by
  induction parts with
  | nil => exact Text.replaceAll_nil (List.cons_ne_nil _ _) _
  | cons part parts ih =>
    rw [List.flatMap_cons, List.flatMap_cons, ← ih]
    cases part with
    | plain text free => exact Text.replaceAll_append_of_notMem _ free.1 _
    | hole n free =>
      cases found : done.find? fun i => i.id == n with
      | some i =>
        have put : (hole n free).filled done = i.contribution := by simp [filled, found]
        rw [put, filled_concat_of_some found]
        -- a place of the placeholder that starts in the text of an input would be formed by texts
        refine Text.replaceAll_append_of_not_start _ fun t inside some start => ?_
        obtain ⟨d, w, rfl⟩ := List.exists_cons_of_ne_nil some
        obtain ⟨rfl, named⟩ := List.cons_prefix_cons.1 start
        have hi := List.mem_of_find?_eq_some found
        rcases exists_forms braceFree inside named with whole | ⟨c, hc, formed⟩
        · exact apart i hi i hi (.inl whole)
        · exact apart i hi c hc formed
      | none =>
        have kept : (hole n free).filled done = placeholder n := by simp [filled, found]
        rw [kept, filled_concat_of_none found]
        split
        case isTrue same =>
          rw [same]
          exact Text.replaceAll_self_append (List.cons_ne_nil _ _) _ _
        case isFalse other =>
          have here : ¬ placeholder j.id <+: '\x7b' :: ((n ++ ['\x7d']) ++
              parts.flatMap (filled done)) := fun start =>
            other (eq_of_placeholder_start braceFree.2 free.2 start)
          have nowhere : '\x7b' ∉ n ++ ['\x7d'] := by simpa using free.1
          have shape (s : Text) : placeholder n ++ s = '\x7b' :: ((n ++ ['\x7d']) ++ s) := rfl
          rw [shape, shape, Text.replaceAll_cons_of_not_start _ here]
          exact congrArg _ (Text.replaceAll_append_of_notMem _ nowhere _)

theorem filled_concat_of_idle (idle : j.Idle) (part : Segment) :
    part.filled (done ++ [j]) = part.filled done := by
  cases part with
  | plain text free => rfl
  | hole n free =>
    cases found : done.find? fun i => i.id == n with
    | some i => rw [filled_concat_of_some found, filled, found]
    | none =>
      rw [filled_concat_of_none found, filled, found]
      split
      case isTrue same => rw [idle, same]
      case isFalse => rfl

end Segment

namespace Block
open Input Segment

/-- The texts that were put in before an input do not form its placeholder, or it changes
nothing. -/
def FilledApart (inputs : List Input) : Prop :=
  ∀ done j, done ++ [j] <+: inputs →
    j.Idle ∨ ∀ a ∈ done, ∀ c ∈ done, ¬ Forms j.id a.contribution c.contribution

/-- Filling in one input after the other is filling in all at once, as long as no texts that were
put in form a placeholder. -/
theorem fill_flatTemplate {inputs : List Input} (ids : ∀ i ∈ inputs, BraceFree i.id)
    (apart : FilledApart inputs) (parts : List Segment) :
    fill (flatTemplate parts) inputs = parts.flatMap (filled inputs) := by
  -- the last input is put into a template that all others have been put into
  induction inputs using List.reverseRecOn with
  | nil => rw [filled_nil]; rfl
  | append_singleton inputs j ih =>
    have before : fill (flatTemplate parts) inputs = parts.flatMap (filled inputs) :=
      ih (fun i hi => ids i (List.mem_append_left _ hi)) fun done k start =>
        apart done k (start.trans (List.prefix_append _ _))
    rw [fill, List.foldl_append, List.foldl_cons, List.foldl_nil, ← fill, before]
    rcases apart inputs j List.prefix_rfl with idle | apart
    · rw [idle, Text.replaceAll_same]
      exact congrArg parts.flatMap (funext fun part => (filled_concat_of_idle idle part).symm)
    · exact replaceAll_filled (ids j (List.mem_append_right _ List.mem_cons_self)) apart parts

end Block

namespace Input

/-- A text in which all braces are closed forms only the placeholders that stand in it. -/
theorem not_forms_of_closed {name a c : Text} (free : '\x7d' ∉ name) (closed : Closed a)
    (absent : ¬ placeholder name <:+: a) : ¬ Forms name a c := by
  rintro (whole | ⟨x, y, z, rfl, inside, -⟩)
  · exact absent whole
  · exact free (List.mem_append_left _ (List.mem_append_left _ (closed x inside)))

end Input

namespace Block
open Input Segment

theorem filledApart_of_braceFree {inputs : List Input} (ids : ∀ i ∈ inputs, BraceFree i.id)
    (texts : ∀ i ∈ inputs, BraceFree i.contribution) : FilledApart inputs := by
  intro done j start
  have inInputs {i : Input} (hi : i ∈ done ++ [j]) : i ∈ inputs := start.subset hi
  refine .inr fun a ha c _ => ?_
  have open_notMem := (texts a (inInputs (List.mem_append_left _ ha))).1
  refine not_forms_of_closed (ids j (inInputs (by simp))).2 (.of_notMem open_notMem) fun whole => ?_
  exact open_notMem (whole.subset List.mem_cons_self)

theorem render_of_template (b : Block) {template : Text} (present : b.template = some template) :
    b.render =
      if template = [] ∨ b.inputs = [] then "# ".toList ++ b.label else fill template b.inputs := by
  rw [render, fillable?, present]
  by_cases empty : template = [] ∨ b.inputs = []
  · simp only [empty, if_true]
  · simp only [empty, if_false]

/-! ### Leftovers -/

theorem bracedNames_of_notMem {s : Text} (none : '\x7b' ∉ s) : bracedNames s = [] := by
  rw [bracedNames]
  split
  · rfl
  · next found => rw [Text.splitOnce_of_notMem none] at found; cases found

theorem bracedNames_of_open {s a after : Text} (h : Text.splitOnce ['\x7b'] s = some (a, after)) :
    bracedNames s =
      match Text.splitOnce ['\x7d'] after with
      | none => []
      | some (name, rest) => name :: bracedNames rest := by
  rw [bracedNames]
  split
  · next missing => rw [h] at missing; cases missing
  · next found =>
    rw [h] at found
    cases found
    split <;> next e => rw [e]

theorem bracedNames_placeholder_append {name : Text} (free : '\x7d' ∉ name) (s : Text) :
    bracedNames (placeholder name ++ s) = name :: bracedNames s := by
  have opened : Text.splitOnce ['\x7b'] (placeholder name ++ s) =
      some ([], name ++ '\x7d' :: s) :=
    Text.splitOnce_singleton_eq_some_iff.2 ⟨List.not_mem_nil, by simp [placeholder]⟩
  rw [bracedNames_of_open opened, Text.splitOnce_singleton free]

theorem bracedNames_append_of_notMem {t : Text} (free : '\x7b' ∉ t) (s : Text) :
    bracedNames (t ++ s) = bracedNames s := by
  by_cases opened : '\x7b' ∈ s
  · obtain ⟨a, after, rfl, first⟩ := List.eq_append_cons_of_mem opened
    have first' : '\x7b' ∉ t ++ a := by simp [free, first]
    rw [← List.append_assoc, bracedNames_of_open (Text.splitOnce_singleton first' after),
      bracedNames_of_open (Text.splitOnce_singleton first after)]
  · rw [bracedNames_of_notMem opened, bracedNames_of_notMem (by simp [free, opened])]

section Leftovers

variable {inputs : List Input} (texts : ∀ i ∈ inputs, BraceFree i.contribution)
include texts

/-- A scan of a filled template finds the names that it finds in the template and that no input
has. -/
theorem bracedNames_filled (parts : List Segment) :
    bracedNames (parts.flatMap (filled inputs)) =
      (bracedNames (flatTemplate parts)).filter fun name =>
        (inputs.find? fun i => i.id == name).isNone := by
  induction parts with
  | nil =>
    rw [flatTemplate, List.flatMap_nil, List.flatMap_nil, bracedNames_of_notMem List.not_mem_nil]
    rfl
  | cons part parts ih =>
    rw [flatTemplate] at ih ⊢
    rw [List.flatMap_cons, List.flatMap_cons]
    cases part with
    | plain text free =>
      rw [filled, Segment.text, bracedNames_append_of_notMem free.1,
        bracedNames_append_of_notMem free.1, ih]
    | hole name free =>
      rw [Segment.text, bracedNames_placeholder_append free.2]
      cases found : inputs.find? fun i => i.id == name with
      | some i =>
        have put : (hole name free).filled inputs = i.contribution := by simp [filled, found]
        have clear := (texts i (List.mem_of_find?_eq_some found)).1
        rw [put, bracedNames_append_of_notMem clear, ih, List.filter_cons_of_neg (by simp [found])]
      | none =>
        have put : (hole name free).filled inputs = placeholder name := by simp [filled, found]
        rw [put, bracedNames_placeholder_append free.2, ih,
          List.filter_cons_of_pos (by simp [found])]

/-- No braces stand inside others in a filled template. -/
theorem unnested_filled (parts : List Segment) : Unnested (parts.flatMap (filled inputs)) := by
  induction parts with
  | nil => exact Text.unnested_nil
  | cons part parts ih =>
    rw [List.flatMap_cons]
    cases part with
    | plain text free => exact ih.append_of_notMem free.1
    | hole name free =>
      rw [filled]
      split
      case h_1 i found => exact ih.append_of_notMem (texts i (List.mem_of_find?_eq_some found)).1
      case h_2 => exact ih.placeholder_append free.1

end Leftovers

/-- In a flat template with texts without braces all inputs are filled in at once, and the warning
lists the placeholders that are left over in the program text. -/
theorem render_flatTemplate (b : Block) (parts : List Segment)
    (present : b.template = some (flatTemplate parts)) (some : flatTemplate parts ≠ [])
    (inputs : b.inputs ≠ []) (ids : ∀ i ∈ b.inputs, BraceFree i.id)
    (texts : ∀ i ∈ b.inputs, BraceFree i.contribution) :
    b.render = parts.flatMap (filled b.inputs) ∧
      InOrder (fun name before => isName name = true ∧ StandsAfter b.render name before)
        b.unmatchedPlaceholders := by
  have whole : b.render = parts.flatMap (filled b.inputs) := by
    rw [render_of_template b present, if_neg (not_or.2 ⟨some, inputs⟩),
      fill_flatTemplate ids (filledApart_of_braceFree ids texts)]
  refine ⟨whole, ?_⟩
  have left : b.unmatchedPlaceholders = ((bracedNames b.render).filter isName).eraseDups := by
    rw [unmatchedPlaceholders, present, whole, bracedNames_filled texts, List.filter_filter]
    rfl
  rw [left]
  refine (inOrder_bracedNames isName b.render).of_iff fun name before => ?_
  refine and_congr_right fun named => readAfter_iff_standsAfter ?_ (close_notMem_of_isName named) _
  rw [whole]
  exact unnested_filled texts parts

/-! An id that two inputs have, an input without an id, and names that no input has. -/

def repeatedParts : List Segment :=
  [.hole ['a'] (by decide), .plain " = ".toList (by decide), .hole [] (by decide),
    .plain " + ".toList (by decide), .hole ['b'] (by decide), .hole "a b".toList (by decide),
    .hole ['c'] (by decide), .hole ['b'] (by decide)]

def repeatedInputs : List Input :=
  [⟨['a'], [], .any, some ['1']⟩, ⟨['a'], [], .any, some ['2']⟩, ⟨[], ['L'], .any, some []⟩]

def repeatedInput : Block :=
  { ofTemplate (flatTemplate repeatedParts) [] with inputs := repeatedInputs }

theorem render_flatTemplate_repeated :
    (flatTemplate repeatedParts ≠ [] ∧ repeatedInput.inputs ≠ [] ∧
      (∀ i ∈ repeatedInput.inputs, BraceFree i.id) ∧
      ∀ i ∈ repeatedInput.inputs, BraceFree i.contribution) ∧
      repeatedInput.render = "1 = \"L\" + \x7bb\x7d\x7ba b\x7d\x7bc\x7d\x7bb\x7d".toList ∧
      repeatedInput.unmatchedPlaceholders = [['b'], ['c']] ∧
      InOrder (fun name before =>
          isName name = true ∧ StandsAfter repeatedInput.render name before)
        repeatedInput.unmatchedPlaceholders := by
  have ids : ∀ i ∈ repeatedInput.inputs, BraceFree i.id := by decide
  have texts : ∀ i ∈ repeatedInput.inputs, BraceFree i.contribution := by decide
  have some : flatTemplate repeatedParts ≠ [] := List.cons_ne_nil _ _
  have inputs : repeatedInput.inputs ≠ [] := List.cons_ne_nil _ _
  obtain ⟨whole, left⟩ := render_flatTemplate repeatedInput repeatedParts rfl some inputs ids texts
  exact ⟨⟨some, inputs, ids, texts⟩, whole.trans (by decide), by decide +kernel, left⟩

end Block
end BlockCanvas
