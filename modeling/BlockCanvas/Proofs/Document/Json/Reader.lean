import BlockCanvas.Proofs.Document.Json.Number
import BlockCanvas.Proofs.Document.Json.Tree
import BlockCanvas.Proofs.Except

/-!
# Readers of built trees

What the builders `ofText`, `ofOption`, `ofList` and `ofFields` make is whole, and the readers take
it apart again.  A record is read one member at a time: `collectMembers_field`, and the other way
round `collectMembers_field_ok`.  What each field of a record keeps holds of every record that is
read, whatever tree it was read from: `record_read_keeps`.
-/

namespace BlockCanvas
namespace Json

/-! ### Built trees are whole -/

theorem whole_ofText (s : Text) : (ofText s).Whole := ⟨s, rfl⟩

theorem whole_ofOption (o : Option Text) : (ofOption o).Whole := by
  cases o with
  | none => trivial
  | some s => exact whole_ofText s

theorem whole_ofList {js : List Json} (h : ∀ j ∈ js, j.Whole) : (ofList js).Whole := by
  show Items.Whole (js.foldr .cons .close)
  induction js with
  | nil => trivial
  | cons j js ih =>
    refine ⟨h j List.mem_cons_self, ih ?_⟩
    intro i hi
    exact h i (List.mem_cons_of_mem j hi)

theorem whole_ofFields {fields : List (Text × Json)} (h : ∀ f ∈ fields, f.2.Whole) :
    (ofFields fields).Whole := by
  show Members.Whole (fields.foldr (fun f tail => .cons (.ofText f.1) f.2 tail) .close)
  induction fields with
  | nil => trivial
  | cons f fields ih =>
    refine ⟨⟨f.1, rfl⟩, h f List.mem_cons_self, ih ?_⟩
    intro g hg
    exact h g (List.mem_cons_of_mem f hg)

/-! ### Values -/

theorem text_literal_ofText (s : Text) : (Literal.ofText s).text = .ok s := by
  show Literal.textOf none (s.map .char) = .ok s
  induction s with
  | nil => rfl
  | cons c s ih =>
    rw [List.map_cons, Literal.textOf, ih]
    rfl

variable (room : Nat)

theorem text_ofText (s : Text) : text room (ofText s) = .ok s := by
  show liftFlaw (Literal.ofText s).text = _
  rw [text_literal_ofText]
  rfl

theorem nullable_ofOption (o : Option Text) : nullable text room (ofOption o) = .ok o := by
  cases o with
  | none => rfl
  | some s =>
    show (text room (ofText s)).map some = _
    rw [text_ofText]
    rfl

/-- A value is read by its name if it is the first one of that name. -/
theorem choice_ofText {α : Type} {values : List α} {name : α → Text} {a : α} (mem : a ∈ values)
    (first : values.find? (fun b => name b == name a) = some a) :
    choice values name room (ofText (name a)) = .ok a := by
  have known : (values.map name).contains (name a) :=
    List.contains_iff_mem.2 (List.mem_map_of_mem mem)
  simp only [choice, ofText, variant, knownName, text_literal_ofText, liftFlaw, ok_bind, known,
    if_true, pure_bind, first]

/-- A list is read item by item. -/
theorem list_ofList {α β : Type} {read : Reader β} {toJson : α → Json} {f : α → β} {as : List α}
    (h : ∀ a ∈ as, read room (toJson a) = .ok (f a)) :
    list read (room + 1) (ofList (as.map toJson)) = .ok (as.map f) := by
  show listItems read room ((as.map toJson).foldr .cons .close) = _
  induction as with
  | nil => rfl
  | cons a as ih =>
    have tail := ih fun c hc => h c (List.mem_cons_of_mem a hc)
    rw [List.map_cons, List.foldr_cons, listItems, h a List.mem_cons_self, ok_bind, tail]
    rfl

/-- A list of values that are read as themselves. -/
theorem list_ofList_self {α : Type} {read : Reader α} {toJson : α → Json}
    (h : ∀ a, read room (toJson a) = .ok a) (as : List α) :
    list read (room + 1) (ofList (as.map toJson)) = .ok as := by
  rw [list_ofList room (f := id) fun a _ => h a, List.map_id]

/-! ### Records -/

variable {room}

/-- A member goes to its field if that has not been set before. -/
theorem collectMembers_field {δ α : Type} {fields : List (Field δ)} {name : Text} {label : String}
    {absence : Absence} {read : Reader α} {get : δ → Option α} {set : δ → α → δ} {v : Json} {a : α}
    {tail : Members} {d e : δ}
    (found : fields.find? (fun f => f.name == name) = some (field label absence read get set))
    (unset : get d = none) (value : read room v = .ok a)
    (rest : collectMembers fields room tail (set d a) = .ok e) :
    collectMembers fields room (.cons (.ofText name) v tail) d = .ok e := by
  have stored : (field label absence read get set).read d room v = .ok (set d a) := by
    simp only [field, value]
    rfl
  have fresh : (field label absence read get set).isSet d = false := by
    simp [field, unset]
  rw [collectMembers, text_literal_ofText]
  simp [liftFlaw, ok_bind, found, fresh, stored, rest]

/-- A record is read if its members are, no required field is missing, and its value can be
built. -/
theorem record_read {δ α : Type} {r : Record δ α} {members : Members} {d : δ} {a : α}
    (collected : collectMembers r.fields room members r.start = .ok d)
    (complete : r.fields.find? (fun f => f.absence = .required && !f.isSet d) = none)
    (built : r.build d = some a) : r.read (room + 1) (.object members) = .ok a := by
  simp only [Record.read, enter, collected, ok_bind, checkFields, complete, Record.finish, built]

/-- A document is read as its tree is. -/
theorem readDocument_pretty {α : Type} (read : Reader α) {j : Json} (whole : j.Whole) :
    readDocument read (pretty j) = read maxDepth j := by
  simp only [readDocument, parse_pretty whole, if_true]
  exact bind_pure _

/-! ### What was read -/

theorem isFinite_of_float {j : Json} {x : Binary64} (h : float room j = .ok x) : x.isFinite := by
  unfold float at h
  split at h
  · split at h
    · next read =>
      cases h
      exact Amount.isFinite_toFloat read
    · cases h
  · cases h

theorem readDocument_ok {α : Type} {read : Reader α} {s : Text} {a : α}
    (h : readDocument read s = .ok a) : ∃ j, read maxDepth j = .ok a := by
  unfold readDocument at h
  generalize parse s = parsed at h
  obtain ⟨j, whole⟩ := parsed
  obtain ⟨a', read, h⟩ := bind_eq_ok.1 h
  split at h
  · cases h
    exact ⟨j, read⟩
  · cases h

theorem field_read_ok {δ α : Type} {label : String} {absence : Absence} {read : Reader α}
    {get : δ → Option α} {set : δ → α → δ} {d e : δ} {j : Json}
    (h : (field label absence read get set).read d room j = .ok e) :
    ∃ a, read room j = .ok a ∧ set d a = e :=
  map_eq_ok.1 h

/-- If a member was collected its value was read. -/
theorem collectMembers_field_ok {δ α : Type} {fields : List (Field δ)} {name : Text}
    {label : String} {absence : Absence} {read : Reader α} {get : δ → Option α} {set : δ → α → δ}
    {v : Json} {tail : Members} {d e : δ}
    (found : fields.find? (fun f => f.name == name) = some (field label absence read get set))
    (h : collectMembers fields room (.cons (.ofText name) v tail) d = .ok e) :
    ∃ a, read room v = .ok a ∧ collectMembers fields room tail (set d a) = .ok e := by
  rw [collectMembers, text_literal_ofText] at h
  simp only [liftFlaw, ok_bind, found] at h
  split at h
  · cases h
  · obtain ⟨_, stored, rest⟩ := bind_eq_ok.1 h
    obtain ⟨a, value, rfl⟩ := field_read_ok stored
    exact ⟨a, value, rest⟩

theorem record_read_ok {δ α : Type} {r : Record δ α} {members : Members} {a : α}
    (h : r.read (room + 1) (.object members) = .ok a) :
    ∃ d, collectMembers r.fields room members r.start = .ok d := by
  obtain ⟨d, collected, -⟩ := bind_eq_ok.1 h
  exact ⟨d, collected⟩

/-- If a list was read all of its items were. -/
theorem list_ofList_ok {α β : Type} {read : Reader β} {toJson : α → Json} {as : List α}
    {bs : List β} (h : list read (room + 1) (ofList (as.map toJson)) = .ok bs) :
    ∀ a ∈ as, ∃ b, read room (toJson a) = .ok b := by
  change listItems read room ((as.map toJson).foldr .cons .close) = .ok bs at h
  induction as generalizing bs with
  | nil =>
    intro a ha
    cases ha
  | cons a as ih =>
    obtain ⟨b, head, h⟩ := bind_eq_ok.1 h
    obtain ⟨bs, tail, -⟩ := bind_eq_ok.1 h
    exact List.forall_mem_cons.2 ⟨⟨b, head⟩, ih tail⟩

theorem listItems_ok {α : Type} {read : Reader α} :
    ∀ {is : Items} {as : List α}, listItems read room is = .ok as →
      ∀ a ∈ as, ∃ j, read room j = .ok a
  | .close, _, h => by
    cases h
    intro a ha
    cases ha
  | .broken _, _, h => by cases h
  | .cons head tail, as, h => by
    obtain ⟨a, read, h⟩ := bind_eq_ok.1 h
    obtain ⟨rest, later, h⟩ := bind_eq_ok.1 h
    cases h
    exact List.forall_mem_cons.2 ⟨⟨head, read⟩, listItems_ok later⟩

theorem list_ok {α : Type} {read : Reader α} {j : Json} {as : List α}
    (h : list read room j = .ok as) : ∀ a ∈ as, ∃ room j, read room j = .ok a := by
  unfold list at h
  split at h
  · cases room with
    | zero => cases h
    | succ room =>
      intro a ha
      obtain ⟨j, read⟩ := listItems_ok h a ha
      exact ⟨room, j, read⟩
  · cases h

/-! ### What holds of every record -/

section

variable {δ α : Type} {P : δ → Prop}

/-- Every field keeps what holds of a collection. -/
def FieldsKeep (P : δ → Prop) (fields : List (Field δ)) : Prop :=
  ∀ f ∈ fields, ∀ {room : Nat} {j : Json} {d e : δ}, f.read d room j = .ok e → P d → P e

theorem fieldsKeep_nil : FieldsKeep P [] := by
  intro f hf
  cases hf

theorem FieldsKeep.field {fields : List (Field δ)} {label : String} {absence : Absence}
    {read : Reader α} {get : δ → Option α} {set : δ → α → δ} (rest : FieldsKeep P fields)
    (first : ∀ {room j a d}, read room j = .ok a → P d → P (set d a)) :
    FieldsKeep P (Json.field label absence read get set :: fields) := by
  intro f hf room j d e h start
  rcases List.mem_cons.1 hf with rfl | hf
  · obtain ⟨a, value, rfl⟩ := field_read_ok h
    exact first value start
  · exact rest f hf h start

theorem collectMembers_keeps {fields : List (Field δ)} (keep : FieldsKeep P fields) :
    ∀ {ms : Members} {d e : δ}, collectMembers fields room ms d = .ok e → P d → P e
  | .close, _, _, h, start => by
    cases h
    exact start
  | .broken _, _, _, h, _ | .dangling _, _, _, h, _ => by cases h
  | .cons key v tail, d, e, h, start => by
    rw [collectMembers] at h
    obtain ⟨name, -, h⟩ := bind_eq_ok.1 h
    split at h
    · next f found =>
      split at h
      · cases h
      · obtain ⟨d', stored, later⟩ := bind_eq_ok.1 h
        have mem := List.mem_of_find?_eq_some found
        exact collectMembers_keeps keep later (keep f mem stored start)
    · obtain ⟨_, -, later⟩ := bind_eq_ok.1 h
      exact collectMembers_keeps keep later start

theorem collectItems_keeps {expected : Text} :
    ∀ {fields : List (Field δ)} {i : Nat} {is : Items} {d e : δ}, FieldsKeep P fields →
      collectItems expected room fields i is d = .ok e → P d → P e
  | [], _, .close, _, _, _, h, start => by
    cases h
    exact start
  | [], _, .cons _ _, _, _, _, h, _ => by cases h
  | [], _, .broken _, _, _, _, h, _ | _ :: _, _, .broken _, _, _, _, h, _ => by cases h
  | f :: fields, i, .close, d, e, _, h, start => by
    simp only [collectItems] at h
    split at h
    · cases h
    · cases h
      exact start
  | f :: fields, i, .cons head tail, d, e, keep, h, start => by
    rw [collectItems] at h
    obtain ⟨d', stored, later⟩ := bind_eq_ok.1 h
    have first := keep f List.mem_cons_self stored start
    exact collectItems_keeps (fun g hg => keep g (List.mem_cons_of_mem f hg)) later first

/-- What holds of the empty collection and is kept by every field holds of what a record is built
from. -/
theorem record_read_keeps {r : Record δ α} (keep : FieldsKeep P r.fields) (start : P r.start)
    {j : Json} {a : α} (h : r.read room j = .ok a) : ∃ d, P d ∧ r.build d = some a := by
  have finished {d : δ} (h : r.finish d = .ok a) : r.build d = some a := by
    unfold Record.finish at h
    split at h
    · next built =>
      cases h
      exact built
    · cases h
  unfold Record.read at h
  split at h
  · cases room with
    | zero => cases h
    | succ room =>
      obtain ⟨d, collected, h⟩ := bind_eq_ok.1 h
      obtain ⟨d', checked, h⟩ := bind_eq_ok.1 h
      obtain rfl : d = d' := by
        unfold checkFields at checked
        split at checked
        · cases checked
        · exact Except.ok.inj checked
      exact ⟨d, collectMembers_keeps keep collected start, finished h⟩
  · cases room with
    | zero => cases h
    | succ room =>
      obtain ⟨d, collected, h⟩ := bind_eq_ok.1 h
      exact ⟨d, collectItems_keeps keep collected start, finished h⟩
  · cases h

end

end Json
end BlockCanvas
