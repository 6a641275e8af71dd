import BlockCanvas.Proofs.Number.Width
import BlockCanvas.Proofs.Program.Chain
import BlockCanvas.Proofs.Program.Footprint
import BlockCanvas.Proofs.Program.Layout
import BlockCanvas.Proofs.Program.ListLimits
import BlockCanvas.Proofs.Program.Shapes

/-!
# How long the texts of a run get

A value shows its texts, its numbers and commas.  Lists have a limit, which counts the values in
them, and numbers are short; so a value is as long as the texts inside it allow, times the limit
(`length_display_lt`).  The texts have no limit.  Each of them stands in the program unless a sum
joined it (`shortTexts_of_evaluate`), but a line that joins a variable to itself makes its text
twice as long: `length_display_doublings`.

How fast texts get longer depends on the operators that fit in the program.  In a table of texts of
length `K` an expression of length `n` gives a text of length at most `(n + 3) * K / 4`
(`length_display_of_evaluate`).  So a line multiplies the length by what it takes of the program:
`exists_shownIn_perform`.

Main statement: `length_display_growth`.
-/

namespace BlockCanvas
namespace Value

/-! ### The texts inside a value -/

mutual

/-- The texts inside a value. -/
def texts : Value → List Text
  | .text s => [s]
  | .number _ => []
  | .list items => textsOf items

/-- The texts inside all of these values. -/
def textsOf : List Value → List Text
  | [] => []
  | v :: rest => texts v ++ textsOf rest

end

/-- No text inside the value is longer. -/
def ShortTexts (size : Nat) (v : Value) : Prop := ∀ s ∈ v.texts, s.length ≤ size

/-- No text inside these values is longer. -/
def ShortTextsOf (size : Nat) (items : List Value) : Prop := ∀ s ∈ textsOf items, s.length ≤ size

theorem shortTextsOf_cons {size : Nat} {v : Value} {rest : List Value} :
    ShortTextsOf size (v :: rest) ↔ v.ShortTexts size ∧ ShortTextsOf size rest :=
  List.forall_mem_append

theorem shortTexts_text {size : Nat} {s : Text} : (text s).ShortTexts size ↔ s.length ≤ size :=
  List.forall_mem_singleton

theorem shortTexts_number (size : Nat) (x : Binary64) : (number x).ShortTexts size :=
  List.forall_mem_nil _

theorem shortTexts_nil (size : Nat) : (list []).ShortTexts size := List.forall_mem_nil _

theorem shortTexts_list_concat {size : Nat} {items : List Value} {item : Value}
    (h : (list items).ShortTexts size) (last : item.ShortTexts size) :
    (list (items ++ [item])).ShortTexts size := by
  show ShortTextsOf size (items ++ [item])
  induction items with
  | nil => exact shortTextsOf_cons.2 ⟨last, h⟩
  | cons v items ih =>
    obtain ⟨first, rest⟩ := shortTextsOf_cons.1 h
    exact shortTextsOf_cons.2 ⟨first, ih rest⟩

mutual

/-- Each value inside a value shows its text or its number, and a comma or nothing. -/
theorem length_display_lt {size : Nat} (room : 26 ≤ size) : ∀ v : Value, v.ShortTexts size →
    v.display.length < v.measure.count * (size + 1)
  | text s, short => by
    have shown := shortTexts_text.1 short
    simp only [display, measure]
    omega
  | number x, _ => by
    have shown := x.length_display_le
    simp only [display, measure]
    omega
  | list items, short => by
    have inside := length_displayItems_le room items short
    simp only [display, measure, Nat.add_mul]
    omega

theorem length_displayItems_le {size : Nat} (room : 26 ≤ size) : ∀ items : List Value,
    ShortTextsOf size items →
    (displayItems items).length ≤ (measureItems items).count * (size + 1)
  | [], _ => Nat.zero_le _
  | [v], short => by
    have shown := length_display_lt room v (shortTextsOf_cons.1 short).1
    simp only [displayItems, measureItems, Nat.add_zero]
    omega
  | v :: next :: rest, short => by
    obtain ⟨first, later⟩ := shortTextsOf_cons.1 short
    have shown := length_display_lt room v first
    have inside := length_displayItems_le room (next :: rest) later
    rw [displayItems, measureItems, List.length_append, List.length_cons, Nat.add_mul]
    omega

end

/-- The text of the value has at most so many characters. -/
def ShownIn (size : Nat) (v : Value) : Prop := v.display.length ≤ size

theorem shownIn_number {size : Nat} (room : 26 ≤ size) (x : Binary64) : (number x).ShownIn size :=
  x.length_display_le.trans room

theorem length_display_list_concat_le (items : List Value) (item : Value) :
    (list (items ++ [item])).display.length ≤
      (list items).display.length + item.display.length + 1 := by
  rw [display_list_concat]
  split
  · omega
  · rw [List.length_append, List.length_cons]
    omega

end Value

namespace Expression

open Value (ShortTexts ShownIn)

variable {b : Bindings} {e : Text} {v : Value}

/-! ### Expressions -/

/-- No text gets longer than the longest one that was there, if no sum joins two of them. -/
theorem shortTexts_of_evaluate {size : Nat} (hb : b.All (ShortTexts size)) (short : e.length ≤ size)
    (noSum : ¬ " + ".toList <:+: e) (value : evaluate b e = .ok v) : v.ShortTexts size := by
  refine evaluateIn_induction (b := b)
    (motive := fun e v => e.length ≤ size → ¬ " + ".toList <:+: e → v.ShortTexts size)
    ?_ ?_ ?_ _ value short noSum
  · intro e v atom short _
    unfold atom? at atom
    split at atom
    · next s quoted =>
      cases atom
      exact Value.shortTexts_text.2 ((infix_of_unquote? quoted).length_le.trans short)
    · split at atom
      · cases atom
        exact Value.shortTexts_number size _
      · exact hb.get? atom
  · intro e short _
    exact Value.shortTexts_text.2 short
  · intro e op left right l r v cut _ _ value _ noSum
    rcases operate_eq_ok value with ⟨rfl, -⟩ | ⟨z, -, rfl⟩
    · exact absurd ⟨_, _, (cut?_append cut).symm⟩ noSum
    · exact Value.shortTexts_number size z

/-- A part of an expression shows at most the longest text of the table, and it has at least one
character, or it is a number; each operator between two parts has three. -/
theorem length_display_of_evaluate {size : Nat} (large : 35 ≤ size) (hb : b.All (ShownIn size))
    (value : evaluate b e = .ok v) : 4 * v.display.length ≤ (e.length + 3) * size := by
  have least (n : Nat) : (n + 3) * 35 ≤ (n + 3) * size := Nat.mul_le_mul_left _ large
  have number (x : Binary64) (e : Text) : 4 * x.display.length ≤ (e.length + 3) * size := by
    have shown := x.length_display_le
    have bound := least e.length
    omega
  refine evaluateIn_induction (b := b)
    (motive := fun e v => 4 * v.display.length ≤ (e.length + 3) * size) ?_ ?_ ?_ _ value
  · intro e v atom
    unfold atom? at atom
    split at atom
    · next s quoted =>
      cases atom
      have inside := (infix_of_unquote? quoted).length_le
      have bound := least e.length
      show 4 * s.length ≤ _
      omega
    · split at atom
      · cases atom
        exact number _ e
      · next noNumber =>
        -- the empty text is a number, so a name that is read is not empty
        have name : 1 ≤ e.length := by
          rcases e with _ | ⟨c, e⟩
          · cases noNumber
          · exact Nat.succ_pos _
        have shown : v.display.length ≤ size := hb.get? atom
        calc 4 * v.display.length ≤ (1 + 3) * size := Nat.mul_le_mul_left _ shown
          _ ≤ (e.length + 3) * size := Nat.mul_le_mul_right _ (Nat.add_le_add_right name 3)
  · intro e
    have bound := least e.length
    show 4 * e.length ≤ _
    omega
  · intro e op left right l r v cut hl hr value
    rcases operate_eq_ok value with ⟨-, rfl⟩ | ⟨z, -, rfl⟩
    · have whole : e.length + 3 = (left.length + 3) + (right.length + 3) := by
        rw [cut?_append cut, List.length_append, List.length_append]
        show left.length + 3 + right.length + 3 = _
        omega
      show 4 * (l.display ++ r.display).length ≤ _
      rw [whole, Nat.add_mul, List.length_append]
      omega
    · exact number z e

end Expression

namespace Statement

open BlockCanvas.Action Value

variable {config : Config} {b b' : Bindings} {line : Text}

/-! ### Lines -/

theorem shortTexts_of_change {size : Nat} (change : Change config b line b')
    (hb : b.All (ShortTexts size)) (short : line.length ≤ size) (noSum : ¬ " + ".toList <:+: line) :
    b'.All (ShortTexts size) := by
  refine change.all hb ?_ (fun x _ => shortTexts_number size x) (shortTexts_nil size) ?_
  · intro b e v hb inside value
    exact Expression.shortTexts_of_evaluate hb (inside.length_le.trans short)
      (fun sum => noSum (sum.trans inside)) value
  · intro name list item longer target last grown
    obtain ⟨items, rfl, rfl⟩ := appended_eq_ok grown
    exact shortTexts_list_concat target last

/-- An append has its call around the item. -/
theorem length_item_of_append? {name item : Text} (h : Shape.append? line = some (name, item)) :
    item.length + 9 ≤ line.length := by
  obtain ⟨before, after, rfl, ⟨-, -, -, rest, rfl, -⟩, -⟩ :=
    (Shape.recognizes_append.eq_some_iff _ _).1 h
  simp only [List.length_append]
  show item.length + 9 ≤ before.length + 8 + (item.length + 1 + rest.length)
  omega

theorem length_expression_of_splitOnce {name e : Text}
    (cut : Text.splitOnce " = ".toList line = some (name, e)) :
    (Text.trim e).length + 3 ≤ line.length := by
  have inside := (Text.trim_infix e).length_le
  rw [Text.splitOnce_append cut, List.length_append, List.length_append]
  show _ ≤ name.length + 3 + e.length
  omega

/-- A line makes the longest text of the table longer by a factor of a quarter of its own length. -/
theorem shownIn_of_change {size : Nat} (large : 35 ≤ size) (change : Change config b line b')
    (hb : b.All (ShownIn size)) : b'.All (ShownIn (max size (line.length * size / 4))) := by
  have kept {b : Bindings} (hb : b.All (ShownIn size)) :
      b.All (ShownIn (max size (line.length * size / 4))) :=
    fun entry member => (hb entry member).trans (Nat.le_max_left ..)
  have grown {v : Value} (h : 4 * v.display.length ≤ line.length * size) :
      v.ShownIn (max size (line.length * size / 4)) :=
    (show v.display.length ≤ _ by omega).trans (Nat.le_max_right ..)
  cases change with
  | same => exact kept hb
  | assigned cut value =>
    have shown := Expression.length_display_of_evaluate large hb value
    have characters := Nat.mul_le_mul_right size (length_expression_of_splitOnce cut)
    exact (kept hb).bind _ (grown (shown.trans characters))
  | looped shape => exact kept (all_looped hb (fun x _ => shownIn_number (by omega) x) shape)
  | opened => exact kept (hb.opened (Nat.zero_le _) _)
  | @appended name e target item _ shape bound value grows =>
    have opened := hb.opened (Nat.zero_le _) name
    have old : target.display.length ≤ size := opened.get? bound
    have new := Expression.length_display_of_evaluate large opened value
    have characters := Nat.mul_le_mul_right size (length_item_of_append? shape)
    obtain ⟨items, rfl, rfl⟩ := appended_eq_ok grows
    have whole := length_display_list_concat_le items item
    refine (kept opened).bind name (grown ?_)
    rw [Nat.add_mul] at new characters
    omega

/-! ### Runs -/

theorem keeps_shortTexts_perform {size : Nat} {lines : List Text}
    (short : ∀ line ∈ lines, line.length ≤ size)
    (noSum : ∀ line ∈ lines, ¬ " + ".toList <:+: line) :
    Keeps (Bindings.All (ShortTexts size)) (fun _ => True) (Program.perform config lines) := by
  apply keeps_forEach
  intro line member b hb
  exact ⟨shortTexts_of_change (change_step config b line) hb (short line member)
    (noSum line member), fun _ _ => trivial⟩

theorem pow_eight_le (n : Nat) : n ^ 8 ≤ 4 ^ 8 * 2 ^ (n + 1) := by
  rcases Nat.lt_or_ge n 12 with few | many
  · decide +revert
  · induction n, many using Nat.le_induction with
    | base => decide
    | succ n many ih =>
      have root : (12 * (n + 1)) ^ 8 ≤ (13 * n) ^ 8 := Nat.pow_le_pow_left (by omega) 8
      have ratio : 12 ^ 8 * (n + 1) ^ 8 ≤ 12 ^ 8 * (2 * n ^ 8) := by
        rw [Nat.mul_pow, Nat.mul_pow] at root
        omega
      calc (n + 1) ^ 8 ≤ 2 * n ^ 8 := Nat.le_of_mul_le_mul_left ratio (by decide)
        _ ≤ 2 * (4 ^ 8 * 2 ^ (n + 1)) := Nat.mul_le_mul_left 2 ih
        _ = 4 ^ 8 * 2 ^ (n + 1 + 1) := by rw [Nat.pow_succ 2 (n + 1)]; omega

/-- So the factor is at most the eighth root of two for each character of the line and for its line
feed. -/
theorem max_pow_eight_le (size n : Nat) :
    (max size (n * size / 4)) ^ 8 ≤ size ^ 8 * 2 ^ (n + 1) := by
  rcases Nat.le_total (n * size / 4) size with shorter | longer
  · rw [Nat.max_eq_left shorter]
    exact Nat.le_mul_of_pos_right _ (Nat.two_pow_pos _)
  · rw [Nat.max_eq_right longer]
    have quarter : (4 * (n * size / 4)) ^ 8 ≤ (n * size) ^ 8 :=
      Nat.pow_le_pow_left (Nat.mul_div_le ..) 8
    have times : 4 ^ 8 * (n * size / 4) ^ 8 ≤ 4 ^ 8 * (size ^ 8 * 2 ^ (n + 1)) := by
      rw [Nat.mul_pow, Nat.mul_pow n] at quarter
      calc 4 ^ 8 * (n * size / 4) ^ 8 ≤ n ^ 8 * size ^ 8 := quarter
        _ ≤ 4 ^ 8 * 2 ^ (n + 1) * size ^ 8 := Nat.mul_le_mul_right _ (pow_eight_le n)
        _ = 4 ^ 8 * (size ^ 8 * 2 ^ (n + 1)) := by ring
    exact Nat.le_of_mul_le_mul_left times (by decide)

end Statement

namespace Program

open BlockCanvas.Action Statement Value

variable {config : Config} {b : Bindings}

/-- How many characters these lines have, with a line feed behind each of them. -/
def characters (lines : List Text) : Nat := (lines.map fun line => line.length + 1).sum

theorem characters_append (lines more : List Text) :
    characters (lines ++ more) = characters lines + characters more := by
  rw [characters, List.map_append, List.sum_append]
  rfl

theorem characters_take_le (count : Nat) (lines : List Text) :
    characters (lines.take count) ≤ characters lines := by
  conv_rhs => rw [← List.take_append_drop count lines, characters_append]
  exact Nat.le_add_right ..

theorem characters_programLines_le (source : Text) :
    characters (programLines source) ≤ source.length + 1 := by
  have single {line : Text} (one : '\n' ∉ line) :
      characters (programLines line) ≤ line.length + 1 := by
    rw [programLines_line one]
    split
    · exact Nat.succ_le_succ (Text.trim_infix line).length_le
    · exact Nat.zero_le _
  induction source using Text.line_induction with
  | last line one => exact single one
  | more line rest one ih =>
    have first := single one
    rw [programLines_append, characters_append, List.length_append, List.length_cons]
    omega

/-- The factors of the lines, one after the other. -/
theorem exists_shownIn_perform (config : Config) {size : Nat} (large : 35 ≤ size)
    (hb : b.All (ShownIn size)) (lines : List Text) : ∃ size', 35 ≤ size' ∧
      size' ^ 8 ≤ size ^ 8 * 2 ^ characters lines ∧
      ((perform config lines).on b).bindings.All (ShownIn size') := by
  induction lines generalizing b size with
  | nil => exact ⟨size, large, Nat.le_mul_of_pos_right _ (Nat.two_pow_pos _), hb⟩
  | cons line lines ih =>
    have change := shownIn_of_change large (change_step config b line) hb
    have first := max_pow_eight_le size line.length
    have larger : 35 ≤ max size (line.length * size / 4) := large.trans (Nat.le_max_left ..)
    have whole : characters (line :: lines) = line.length + 1 + characters lines := rfl
    rw [whole, Nat.pow_add, ← Nat.mul_assoc, perform, forEach_cons]
    cases result : ((step config line).on b).result with
    | error failure =>
      rw [on_bind_of_error result]
      exact ⟨_, larger, first.trans (Nat.le_mul_of_pos_right _ (Nat.two_pow_pos _)), change⟩
    | ok _ =>
      rw [on_bind_of_ok result]
      obtain ⟨size', large', grown, table⟩ := ih larger change
      exact ⟨size', large', grown.trans (Nat.mul_le_mul_right _ first), table⟩

/-! ### A text that doubles -/

/-- So many lines that join a variable to itself. -/
def doublings (count : Nat) : Text :=
  ['\n'].intercalate (List.replicate count "a = a + a".toList)

theorem length_doublings (count : Nat) : (doublings (count + 1)).length = 10 * count + 9 := by
  induction count with
  | zero => rfl
  | succ count ih =>
    rw [doublings, List.replicate_succ, List.replicate_succ, List.intercalate_cons_cons,
      ← List.replicate_succ, List.length_append, List.length_append]
    rw [doublings] at ih
    rw [ih]
    show 9 + 1 + _ = _
    omega

theorem programLines_doublings (count : Nat) :
    programLines (doublings count) = List.replicate count "a = a + a".toList := by
  have line : IsProgramLine "a = a + a".toList := by
    refine ⟨by decide, ?_, ?_, rfl⟩
    all_goals
      rintro c ⟨⟩
      rfl
  refine programLines_join fun l member => ?_
  rwa [List.eq_of_mem_replicate member]

/-- The sum `a + a`. -/
def joined : Expression.Chain :=
  let a : Expression.Atom := ⟨['a'], by decide, by simp [Text.isBlank], by decide, by decide⟩
  .cons a .add (.atom a)

/-- What `a` stands for is doubled: the text it is bound to, or its name if it is unbound. -/
theorem step_doubling (config : Config) {s : Text} (names : ∀ entry ∈ b.entries, ' ' ∉ entry.1)
    (held : (b.get? ['a']).getD (.text ['a']) = .text s) :
    (step config "a = a + a".toList).on b = ⟨b.bind ['a'] (.text (s ++ s)), [], .ok ()⟩ := by
  have accepted : Rule.assignment.accepts "a = a + a".toList = true := by decide +kernel
  have sides : Text.splitOnce " = ".toList "a = a + a".toList = some (['a'], "a + a".toList) := by
    decide +kernel
  have value : Expression.evaluate b "a + a".toList = .ok (.text (s ++ s)) := by
    have whole := Expression.Chain.evaluateIn_text names maxExpressionDepth joined (by decide)
    have cut : joined.cut? = some (.add, .atom joined.first, .atom joined.first) := rfl
    have atom : joined.first.value b = .text s := held
    rw [Expression.Chain.value_of_cut? cut, Expression.Chain.value_atom, atom] at whole
    exact whole
  exact on_step_assignment config accepted sides value

theorem perform_doublings (config : Config) (count size : Nat) :
    ((perform config (List.replicate count "a = a + a".toList)).on
      (Bindings.empty.bind ['a'] (.text (List.replicate size 'a')))).bindings =
    Bindings.empty.bind ['a'] (.text (List.replicate (2 ^ count * size) 'a')) := by
  induction count generalizing size with
  | zero =>
    rw [Nat.pow_zero, Nat.one_mul]
    rfl
  | succ count ih =>
    have names : ∀ entry ∈ (Bindings.empty.bind ['a']
        (.text (List.replicate size 'a'))).entries, ' ' ∉ entry.1 := by
      intro entry member
      rw [List.mem_singleton.1 member]
      show ' ' ∉ ['a']
      decide
    have doubled := step_doubling config names (s := List.replicate size 'a') rfl
    rw [Bindings.bind_bind, List.replicate_append_replicate] at doubled
    rw [List.replicate_succ, perform_cons_of_ok doubled]
    have twice : 2 ^ count * (size + size) = 2 ^ (count + 1) * size := by ring
    rw [ih, twice]

/-- Whatever the limits are, `10 * k + 9` characters of program are enough for a text of
`2 ^ (k + 1)`. -/
theorem length_display_doublings (config : Config) (k : Nat) :
    (doublings (k + 1)).length = 10 * k + 9 ∧ ∃ v, (['a'], v) ∈ ((perform config
      (programLines (doublings (k + 1)))).on .empty).bindings.entries ∧
      v.display.length = 2 ^ (k + 1) := by
  have first := step_doubling config (b := .empty) (s := ['a']) (List.forall_mem_nil _) rfl
  have rest := perform_doublings config k 2
  refine ⟨length_doublings k, .text (List.replicate (2 ^ (k + 1)) 'a'), ?_, List.length_replicate⟩
  rw [programLines_doublings, List.replicate_succ, perform_cons_of_ok first]
  dsimp only
  rw [show ['a'] ++ ['a'] = List.replicate 2 'a' from rfl, rest, Nat.pow_succ]
  exact List.mem_cons_self

/-! ### What holds of every run -/

theorem length_le_of_mem_programLines {line source : Text} (member : line ∈ programLines source) :
    line.length ≤ source.length := by
  have one : line.length + 1 ≤ characters (programLines source) :=
    List.le_sum_of_mem (List.mem_map_of_mem member)
  have all := characters_programLines_le source
  omega

/-- No text in the table is longer than the program as long as no sum stands on its lines. -/
theorem shortTexts_of_mem_entries {config : Config} {source : Text} {count : Nat} {name : Text}
    {v : Value} (noSum : ∀ line ∈ (programLines source).take count, ¬ " + ".toList <:+: line)
    (member : (name, v) ∈
      ((perform config ((programLines source).take count)).on .empty).bindings.entries) :
    v.ShortTexts source.length := by
  have short : ∀ line ∈ (programLines source).take count, line.length ≤ source.length :=
    fun line taken => length_le_of_mem_programLines (List.mem_of_mem_take taken)
  exact (keeps_shortTexts_perform short noSum .empty Bindings.all_empty).1 _ member

/-- A list shows at most as many texts as it may hold values. -/
theorem length_display_of_shortTexts {config : Config} {source : Text} {v : Value}
    (short : v.ShortTexts source.length) (limits : v.WithinLimits config) :
    v.display.length ≤ 32 * (source.length + 1) * max 1 config.maxListItems := by
  have texts : v.ShortTexts (source.length + 26) :=
    fun s member => (short s member).trans (Nat.le_add_right ..)
  calc v.display.length ≤ v.measure.count * (source.length + 26 + 1) :=
        Nat.le_of_lt (length_display_lt (Nat.le_add_left ..) v texts)
    _ ≤ max 1 config.maxListItems * (32 * (source.length + 1)) :=
        Nat.mul_le_mul limits.count (by omega)
    _ = 32 * (source.length + 1) * max 1 config.maxListItems := Nat.mul_comm ..

theorem length_display_le_two_pow (config : Config) (source : Text) (count : Nat) {name : Text}
    {v : Value} (member : (name, v) ∈
      ((perform config ((programLines source).take count)).on .empty).bindings.entries) :
    v.display.length ≤ 70 * 2 ^ ((source.length + 1) / 8) := by
  obtain ⟨size, -, grown, table⟩ := exists_shownIn_perform config (Nat.le_refl 35)
    Bindings.all_empty ((programLines source).take count)
  have fewer : characters ((programLines source).take count) ≤
      8 * ((source.length + 1) / 8 + 1) := by
    have taken := characters_take_le count (programLines source)
    have all := characters_programLines_le source
    omega
  have power : size ^ 8 ≤ (35 * 2 ^ ((source.length + 1) / 8 + 1)) ^ 8 :=
    calc size ^ 8 ≤ 35 ^ 8 * 2 ^ characters ((programLines source).take count) := grown
      _ ≤ 35 ^ 8 * 2 ^ (8 * ((source.length + 1) / 8 + 1)) :=
        Nat.mul_le_mul_left _ (Nat.pow_le_pow_right (by decide) fewer)
      _ = (35 * 2 ^ ((source.length + 1) / 8 + 1)) ^ 8 := by
        rw [Nat.mul_pow, ← Nat.pow_mul, Nat.mul_comm 8]
  calc v.display.length ≤ size := table _ member
    _ ≤ 35 * 2 ^ ((source.length + 1) / 8 + 1) := (Nat.pow_le_pow_iff_left (by decide)).1 power
    _ = 70 * 2 ^ ((source.length + 1) / 8) := by rw [Nat.pow_succ]; omega

/-- After every number of lines of every program, each value in the table that has no text longer
than the program shows at most `32 * (n + 1)` characters for each value that a list may hold, `n`
being the length of the program.  All texts are that short if no line has the plus of a sum.  With
sums every value shows at most `70 * 2 ^ ((n + 1) / 8)` characters, and `length_display_doublings`
is nearly as much. -/
theorem length_display_growth (config : Config) (source : Text) (count : Nat) (name : Text)
    (v : Value) (member : (name, v) ∈
      ((perform config ((programLines source).take count)).on .empty).bindings.entries) :
    ((∀ s ∈ v.texts, s.length ≤ source.length) →
      v.display.length ≤ 32 * (source.length + 1) * max 1 config.maxListItems) ∧
    ((∀ line ∈ (programLines source).take count, ¬ " + ".toList <:+: line) →
      ∀ s ∈ v.texts, s.length ≤ source.length) ∧
    v.display.length ≤ 70 * 2 ^ ((source.length + 1) / 8) := by
  refine ⟨fun short => ?_, fun noSum => shortTexts_of_mem_entries noSum member,
    length_display_le_two_pow config source count member⟩
  have kept := (invariant_withinLimits config).keeps_perform
    ((programLines source).take count) .empty Bindings.all_empty
  exact length_display_of_shortTexts short (kept.1 _ member)

/-- A list of two texts under a limit of three values. -/
theorem length_display_growth_append : ∃ name v, (name, v) ∈ ((perform { maxListItems := 3 }
      ((programLines "xs.append(ab)\nxs.append(c)".toList).take 2)).on .empty).bindings.entries ∧
    (∀ line ∈ (programLines "xs.append(ab)\nxs.append(c)".toList).take 2,
      ¬ " + ".toList <:+: line) ∧
    (∀ s ∈ v.texts, s.length ≤ 26) ∧ v.display = "ab,c".toList ∧
    v.display.length ≤ 32 * 27 * max 1 3 := by
  have bound : ∃ entry ∈ ((perform { maxListItems := 3 }
      ((programLines "xs.append(ab)\nxs.append(c)".toList).take 2)).on .empty).bindings.entries,
      entry.2.display = "ab,c".toList := by
    decide +kernel
  have noSum : ∀ line ∈ (programLines "xs.append(ab)\nxs.append(c)".toList).take 2,
      ¬ " + ".toList <:+: line := by
    decide +kernel
  obtain ⟨⟨name, v⟩, member, shown⟩ := bound
  obtain ⟨linear, short, -⟩ := length_display_growth _ _ _ name v member
  exact ⟨name, v, member, noSum, short noSum, shown, linear (short noSum)⟩

/-- Twelve lines of a program of 119 characters leave a text of 4096, and not of at most 3840. -/
theorem not_length_display_linear :
    ¬ ∀ (config : Config) (source : Text) (count : Nat) (name : Text) (v : Value), (name, v) ∈
        ((perform config ((programLines source).take count)).on .empty).bindings.entries →
      v.display.length ≤ 32 * (source.length + 1) * max 1 config.maxListItems := by
  intro linear
  have bounded (k : Nat) : 2 ^ (k + 1) ≤ 32 * (10 * k + 9 + 1) * max 1 1 := by
    obtain ⟨size, v, member, shown⟩ := length_display_doublings { maxListItems := 1 } k
    rw [← List.take_length (l := programLines (doublings (k + 1)))] at member
    have most := linear _ _ _ _ v member
    rwa [size, shown] at most
  have tooLong : ¬ 2 ^ 12 ≤ 32 * (10 * 11 + 9 + 1) * max 1 1 := by decide
  exact tooLong (bounded 11)

end Program
end BlockCanvas
