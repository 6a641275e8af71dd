import BlockCanvas.Proofs.Document.Json.Thorough
import Mathlib.Data.List.Forall2
import Mathlib.Data.List.Nodup

/-!
# Rearranged trees

A record is read alike from the objects that have its members in any order, with more members of
other names, and without members that have the value that they are given when they are missing:
`Orderly.respects`.  What carries this is that the members of different fields are collected alike
in either order (`Independent`), so that a member may be moved to the place where it is added,
changed or left out.
-/

namespace BlockCanvas
namespace Json

/-- The object of members, of which more than one may have the same key. -/
def ofMembers (ms : List (Literal × Json)) : Json :=
  .object (ms.foldr (fun m tail => .cons m.1 m.2 tail) .close)

/-- What a tree may have at one field of a record. -/
structure Slot where
  name : Text
  /-- How the value of the field may be rearranged. -/
  change : Json → Json → Prop
  /-- With which values a member of this name may be left out. -/
  omissible : Json → Prop

/-- The slot of a field that every object of the record has. -/
def Slot.fixed (name : String) (change : Json → Json → Prop) : Slot :=
  ⟨name.toList, change, fun _ => False⟩

/-- The slot of a field that may be left out. -/
def Slot.optional (name : String) (change : Json → Json → Prop) (omissible : Json → Prop) : Slot :=
  ⟨name.toList, change, omissible⟩

/-- A tree of a record with the given slots is rearranged, by any number of steps of these kinds. -/
inductive Rearranged (slots : List Slot) : Json → Json → Prop
  | same (j : Json) : Rearranged slots j j
  | permute {ms ms' : List (Literal × Json)} : ms.Perm ms' →
    Rearranged slots (ofMembers ms) (ofMembers ms')
  /-- A key of no slot; half a surrogate pair is no key at all. -/
  | add {key : Literal} {name : Text} {v : Json} {ms : List (Literal × Json)} :
    key.text = .ok name → (∀ s ∈ slots, s.name ≠ name) → v.Flawless →
      Rearranged slots (ofMembers ms) (ofMembers ((key, v) :: ms))
  | drop {s : Slot} {key : Literal} {v : Json} {ms : List (Literal × Json)} :
    s ∈ slots → key.text = .ok s.name → s.omissible v →
      Rearranged slots (ofMembers ((key, v) :: ms)) (ofMembers ms)
  | member {s : Slot} {key : Literal} {v v' : Json} {ms : List (Literal × Json)} :
    s ∈ slots → key.text = .ok s.name → s.change v v' →
      Rearranged slots (ofMembers ((key, v) :: ms)) (ofMembers ((key, v') :: ms))
  /-- In an array the place of an item says which slot it is for. -/
  | place {s : Slot} {before after : List Json} {v v' : Json} :
    slots[before.length]? = some s → s.change v v' →
      Rearranged slots (ofList (before ++ v :: after)) (ofList (before ++ v' :: after))
  | trans {i j k : Json} : Rearranged slots i j → Rearranged slots j k → Rearranged slots i k

/-- The items of an array are rearranged, each in its place. -/
inductive ItemsRearranged (change : Json → Json → Prop) : Json → Json → Prop
  | same (j : Json) : ItemsRearranged change j j
  | item {before after : List Json} {v v' : Json} : change v v' →
    ItemsRearranged change (ofList (before ++ v :: after)) (ofList (before ++ v' :: after))
  | trans {i j k : Json} : ItemsRearranged change i j → ItemsRearranged change j k →
    ItemsRearranged change i k

/-- The values of rearranged trees are the same. -/
def Respects {α : Type} (read : Reader α) (change : Json → Json → Prop) : Prop :=
  ∀ ⦃room : Nat⦄ ⦃j j' : Json⦄ ⦃a : α⦄, change j j' → read room j = .ok a → read room j' = .ok a

theorem respects_eq {α : Type} (read : Reader α) : Respects read Eq := by
  rintro room j _ a rfl h
  exact h

variable {α δ : Type} {room : Nat}

/-! ### Arrays -/

theorem listItems_change {read : Reader α} {v v' : Json} {tail : Items}
    (same : ∀ a, read room v = .ok a → read room v' = .ok a) :
    ∀ {before : List Json} {as : List α},
      listItems read room (before.foldr .cons (.cons v tail)) = .ok as →
        listItems read room (before.foldr .cons (.cons v' tail)) = .ok as
  | [], as, h => by
    obtain ⟨a, first, h⟩ := bind_eq_ok.1 h
    exact bind_eq_ok.2 ⟨a, same a first, h⟩
  | j :: before, as, h => by
    obtain ⟨a, first, h⟩ := bind_eq_ok.1 h
    obtain ⟨rest, later, h⟩ := bind_eq_ok.1 h
    exact bind_eq_ok.2 ⟨a, first, bind_eq_ok.2 ⟨rest, listItems_change same later, h⟩⟩

theorem Respects.list {read : Reader α} {change : Json → Json → Prop} (h : Respects read change) :
    Respects (Json.list read) (ItemsRearranged change) := by
  intro room j j' as rearranged
  induction rearranged with
  | same => exact id
  | @item before after v v' changed =>
    intro ok
    obtain ⟨less, deeper, items⟩ := enter_eq_ok.1 ok
    rw [List.foldr_append, List.foldr_cons] at items
    refine enter_eq_ok.2 ⟨less, deeper, ?_⟩
    rw [List.foldr_append, List.foldr_cons]
    exact listItems_change (fun a => h changed) items
  | trans _ _ ih ih' => exact ih' ∘ ih

/-! ### Members one after the other -/

/-- A member is collected: it goes to its field, or is skipped. -/
inductive Collects (fields : List (Field δ)) (room : Nat) : δ → Literal × Json → δ → Prop
  | field {key : Literal} {name : Text} {v : Json} {f : Field δ} {d e : δ} :
    key.text = .ok name → fields.find? (fun f => f.name == name) = some f → f.isSet d = false →
      f.read d room v = .ok e → Collects fields room d (key, v) e
  | unknown {key : Literal} {name : Text} {v : Json} {d : δ} :
    key.text = .ok name → fields.find? (fun f => f.name == name) = none → v.Flawless →
      Collects fields room d (key, v) d

/-- Members are collected one after the other. -/
inductive CollectsAll (fields : List (Field δ)) (room : Nat) : δ → List (Literal × Json) → δ → Prop
  | nil {d : δ} : CollectsAll fields room d [] d
  | cons {d d' e : δ} {m : Literal × Json} {ms : List (Literal × Json)} :
    Collects fields room d m d' → CollectsAll fields room d' ms e →
      CollectsAll fields room d (m :: ms) e

theorem collectsAll_concat {fields : List (Field δ)} {m : Literal × Json} :
    ∀ {ms : List (Literal × Json)} {d e : δ}, CollectsAll fields room d (ms ++ [m]) e →
      ∃ d', CollectsAll fields room d ms d' ∧ Collects fields room d' m e
  | [], _, _, .cons last .nil => ⟨_, .nil, last⟩
  | _ :: _, _, _, .cons first later => by
    obtain ⟨d', between, last⟩ := collectsAll_concat later
    exact ⟨d', .cons first between, last⟩

theorem collectMembers_eq_ok {fields : List (Field δ)} :
    ∀ {ms : List (Literal × Json)} {d e : δ},
      collectMembers fields room (ms.foldr (fun m tail => .cons m.1 m.2 tail) .close) d = .ok e ↔
        CollectsAll fields room d ms e
  | [], d, e => by
    constructor
    · rintro ⟨⟩
      exact .nil
    · rintro ⟨⟩
      rfl
  | (key, v) :: ms, d, e => by
    rw [List.foldr_cons, collectMembers]
    constructor
    · intro h
      obtain ⟨name, known, h⟩ := bind_eq_ok.1 h
      have known := liftFlaw_eq_ok.1 known
      split at h
      · next f found =>
        split at h
        · cases h
        · next fresh =>
          obtain ⟨d', stored, h⟩ := bind_eq_ok.1 h
          refine .cons (.field known found ?_ stored) (collectMembers_eq_ok.1 h)
          exact Bool.eq_false_iff.2 fresh
      · next unknown =>
        obtain ⟨skipped, h⟩ := then_eq_ok.1 h
        exact .cons (.unknown known unknown (skip_eq_ok.1 (liftFlaw_eq_ok.1 skipped)))
          (collectMembers_eq_ok.1 h)
    · rintro (_ | ⟨first, later⟩)
      have rest := collectMembers_eq_ok.2 later
      cases first with
      | field known found fresh stored =>
        simp only [known, liftFlaw, ok_bind, found, fresh, Bool.false_eq_true, if_false, stored]
        exact rest
      | unknown known unknown whole =>
        simp only [known, liftFlaw, ok_bind, unknown, skip_eq_ok.2 whole]
        exact rest

/-! ### Fields that do not meet -/

/-- What one field stores, another one leaves alone, and neither notices which of them is first. -/
structure Before (f g : Field δ) : Prop where
  swap : ∀ {room : Nat} {d d' e : δ} {v w : Json}, f.read d room v = .ok d' →
    g.read d' room w = .ok e → ∃ d'', g.read d room w = .ok d'' ∧ f.read d'' room v = .ok e
  isSet : ∀ {room : Nat} {d e : δ} {v : Json}, f.read d room v = .ok e → g.isSet e = g.isSet d

/-- Fields whose members are collected alike in either order. -/
def Independent (f g : Field δ) : Prop := Before f g ∧ Before g f

instance : Std.Symm (@Independent δ) := ⟨fun _ _ h => ⟨h.2, h.1⟩⟩

/-- A field remembers that it is set. -/
def Stores (f : Field δ) : Prop :=
  ∀ ⦃room : Nat⦄ ⦃d e : δ⦄ ⦃v : Json⦄, f.read d room v = .ok e → f.isSet e

section

variable {β : Type} {label label' : String} {absence absence' : Absence} {read : Reader α}
  {read' : Reader β} {get : δ → Option α} {set : δ → α → δ} {get' : δ → Option β}
  {set' : δ → β → δ}

/-- A field is before one that is kept in another place. -/
@[simp] theorem before_field (apart : ∀ d a, get' (set d a) = get' d)
    (comm : ∀ d a b, set' (set d a) b = set (set' d b) a) :
    Before (field label absence read get set) (field label' absence' read' get' set') where
  swap := by
    intro room d d' e v w first second
    obtain ⟨a, value, rfl⟩ := field_read_ok first
    obtain ⟨b, value', rfl⟩ := field_read_ok second
    exact ⟨set' d b, map_eq_ok.2 ⟨b, value', rfl⟩, map_eq_ok.2 ⟨a, value, (comm d a b).symm⟩⟩
  isSet := by
    intro room d e v first
    obtain ⟨a, -, rfl⟩ := field_read_ok first
    simp only [field, apart]

@[simp] theorem stores_field (h : ∀ d a, get (set d a) = some a) :
    Stores (field label absence read get set) := by
  intro room d e v stored
  obtain ⟨a, -, rfl⟩ := field_read_ok stored
  simp [field, h]

end

/-! ### Records -/

/-- A field has a slot: values that are rearranged there are read alike, and a member that may be
left out has the value that a record is built with when there is none. -/
structure Fits (r : Record δ α) (f : Field δ) (s : Slot) : Prop where
  name : f.name = s.name
  change : ∀ d, Respects (f.read d) s.change
  optional : ∀ {v}, s.omissible v → f.absence ≠ .required
  default : ∀ {v}, s.omissible v → ∀ {room d e}, f.isSet d = false → f.read d room v = .ok e →
    r.build e = r.build d

/-- A record type whose trees may be rearranged: its fields have the given slots, their names are
different, each of them remembers that it is set, and any two of them are independent. -/
structure Orderly (r : Record δ α) (slots : List Slot) : Prop where
  fits : List.Forall₂ (Fits r) r.fields slots
  distinct : (r.fields.map Field.name).Nodup
  stores : ∀ f ∈ r.fields, Stores f
  independent : r.fields.Pairwise Independent

section

variable {β : Type} {r : Record δ β} {label : String} {absence : Absence} {read : Reader α}
  {get : δ → Option α} {set : δ → α → δ} {change : Json → Json → Prop} {omissible : Json → Prop}

theorem Respects.field (h : Respects read change) (d : δ) :
    Respects ((field label absence read get set).read d) change := by
  intro room j j' e changed stored
  obtain ⟨a, value, rfl⟩ := field_read_ok stored
  exact map_eq_ok.2 ⟨a, h changed value, rfl⟩

theorem fits_fixed (h : Respects read change) :
    Fits r (Json.field label absence read get set) (.fixed label change) :=
  ⟨rfl, h.field, False.elim, False.elim⟩

/-- An optional field, whose values that may be left out are read as `a`. -/
theorem fits_optional (a : α) (h : Respects read change)
    (default : ∀ {room j b}, omissible j → read room j = .ok b → b = a)
    (same : ∀ d, get d = none → r.build (set d a) = r.build d) :
    Fits r (Json.field label .defaulted read get set) (.optional label change omissible) where
  name := rfl
  change := h.field
  optional _ := by simp [Json.field]
  default := by
    intro v left room d e fresh stored
    obtain ⟨b, value, rfl⟩ := field_read_ok stored
    rw [default left value]
    exact same d (by simpa [Json.field] using fresh)

/-- A field that may be left out if it is null. -/
theorem fits_nullable {get : δ → Option (Option α)} {set : δ → Option α → δ}
    (same : ∀ d, get d = none → r.build (set d none) = r.build d) :
    Fits r (Json.field label .defaulted (nullable read) get set)
      (.optional label Eq (· = .null)) := by
  refine fits_optional none (respects_eq _) ?_ same
  rintro room j o rfl read
  cases read
  rfl

/-- A field that may be left out if it is an empty list. -/
theorem fits_list (h : Respects read change) {get : δ → Option (List α)} {set : δ → List α → δ}
    (same : ∀ d, get d = none → r.build (set d []) = r.build d) :
    Fits r (Json.field label .defaulted (list read) get set)
      (.optional label (ItemsRearranged change) (· = .ofList [])) := by
  refine fits_optional [] h.list ?_ same
  rintro room j as rfl read
  obtain ⟨_, -, items⟩ := enter_eq_ok.1 read
  cases items
  rfl

end

theorem exists_fits {r : Record δ α} {fields : List (Field δ)} {slots : List Slot}
    (fits : List.Forall₂ (Fits r) fields slots) {s : Slot} (hs : s ∈ slots) :
    ∃ f ∈ fields, Fits r f s := by
  induction fits with
  | nil => cases hs
  | @cons f _ _ _ first _ ih =>
    rcases List.mem_cons.1 hs with rfl | hs
    · exact ⟨f, List.mem_cons_self, first⟩
    · obtain ⟨g, hg, fits⟩ := ih hs
      exact ⟨g, List.mem_cons_of_mem f hg, fits⟩

theorem checkFields_eq_ok {fields : List (Field δ)} {d e : δ} :
    checkFields fields d = .ok e ↔
      d = e ∧ ∀ f ∈ fields, f.absence = .required → f.isSet d := by
  have complete : fields.find? (fun f => f.absence = .required && !f.isSet d) = none ↔
      ∀ f ∈ fields, f.absence = .required → f.isSet d := by
    simp [List.find?_eq_none]
  unfold checkFields
  split
  · next f missing =>
    constructor
    · intro refused
      cases refused
    · rintro ⟨-, all⟩
      rw [complete.2 all] at missing
      cases missing
  · next none => rw [Except.ok.injEq, and_iff_left (complete.1 none)]

/-- A record is read from an object if its members are collected, no required field is missing, and
its value can be built. -/
theorem read_ofMembers_eq_ok {r : Record δ α} {ms : List (Literal × Json)} {a : α} :
    r.read room (ofMembers ms) = .ok a ↔
      ∃ less d, room = less + 1 ∧ CollectsAll r.fields less r.start ms d ∧
        (∀ f ∈ r.fields, f.absence = .required → f.isSet d) ∧ r.build d = some a := by
  have finished {d : δ} : r.finish d = .ok a ↔ r.build d = some a := by
    unfold Record.finish
    split <;> simp [*]
  show enter room _ = _ ↔ _
  rw [enter_eq_ok]
  constructor
  · rintro ⟨less, deeper, h⟩
    obtain ⟨d, collected, h⟩ := bind_eq_ok.1 h
    obtain ⟨e, checked, built⟩ := bind_eq_ok.1 h
    obtain ⟨rfl, complete⟩ := checkFields_eq_ok.1 checked
    exact ⟨less, d, deeper, collectMembers_eq_ok.1 collected, complete, finished.1 built⟩
  · rintro ⟨less, d, deeper, collected, complete, built⟩
    refine ⟨less, deeper, bind_eq_ok.2 ⟨d, collectMembers_eq_ok.2 collected, ?_⟩⟩
    exact bind_eq_ok.2 ⟨d, checkFields_eq_ok.2 ⟨rfl, complete⟩, finished.2 built⟩

theorem collectItems_change {r : Record δ α} {expected : Text} {s : Slot} {v v' : Json}
    {tail : Items} (changed : s.change v v') :
    ∀ {before : List Json} {fields : List (Field δ)} {slots : List Slot} {i : Nat} {d e : δ},
      List.Forall₂ (Fits r) fields slots → slots[before.length]? = some s →
        collectItems expected room fields i (before.foldr .cons (.cons v tail)) d = .ok e →
          collectItems expected room fields i (before.foldr .cons (.cons v' tail)) d = .ok e
  | [], _, _, i, d, e, .cons first _, here, h => by
    cases here
    obtain ⟨d', stored, later⟩ := bind_eq_ok.1 h
    exact bind_eq_ok.2 ⟨d', first.change d changed stored, later⟩
  | j :: before, _, _, i, d, e, .cons _ rest, here, h => by
    obtain ⟨d', stored, later⟩ := bind_eq_ok.1 h
    exact bind_eq_ok.2 ⟨d', stored, collectItems_change changed rest here later⟩

namespace Orderly

variable {r : Record δ α} {slots : List Slot}

/-! ### Objects -/

/-- Two members are collected alike in either order. -/
theorem swap (o : Orderly r slots) {m m' : Literal × Json} {d d' e : δ}
    (first : Collects r.fields room d m d') (second : Collects r.fields room d' m' e) :
    ∃ d'', Collects r.fields room d m' d'' ∧ Collects r.fields room d'' m e := by
  cases first with
  | unknown known unknown whole => exact ⟨e, second, .unknown known unknown whole⟩
  | @field key name v f d d' known found fresh stored =>
    cases second with
    | unknown known' unknown whole =>
      exact ⟨d, .unknown known' unknown whole, .field known found fresh stored⟩
    | @field key' name' w g _ _ known' found' fresh' stored' =>
      have hf := List.mem_of_find?_eq_some found
      have hg := List.mem_of_find?_eq_some found'
      by_cases same : f = g
      · subst same
        rw [o.stores f hf stored] at fresh'
        cases fresh'
      · obtain ⟨apart, apart'⟩ := o.independent.forall hf hg same
        obtain ⟨d'', stored'', last⟩ := apart.swap stored stored'
        rw [apart.isSet stored] at fresh'
        rw [← apart'.isSet stored''] at fresh
        exact ⟨d'', .field known' found' fresh' stored'', .field known found fresh last⟩

theorem perm (o : Orderly r slots) {ms ms' : List (Literal × Json)} (perm : ms.Perm ms') :
    ∀ {d e : δ}, CollectsAll r.fields room d ms e → CollectsAll r.fields room d ms' e := by
  induction perm with
  | nil => exact id
  | cons m _ ih =>
    rintro d e (_ | ⟨first, later⟩)
    exact .cons first (ih later)
  | swap m m' ms =>
    rintro d e (_ | ⟨first, _ | ⟨second, later⟩⟩)
    obtain ⟨_, first', second'⟩ := o.swap first second
    exact .cons first' (.cons second' later)
  | trans _ _ ih ih' => exact fun h => ih' (ih h)

/-- The field of a slot is found by its name. -/
theorem find? (o : Orderly r slots) {s : Slot} (hs : s ∈ slots) :
    ∃ f ∈ r.fields, r.fields.find? (fun f => f.name == s.name) = some f ∧ Fits r f s := by
  obtain ⟨f, hf, fits⟩ := exists_fits o.fits hs
  refine ⟨f, hf, ?_, fits⟩
  have some : (r.fields.find? fun f => f.name == s.name).isSome :=
    List.find?_isSome.2 ⟨f, hf, by simp [fits.name]⟩
  obtain ⟨g, found⟩ := Option.isSome_iff_exists.1 some
  have : g.name = f.name := by
    rw [fits.name]
    simpa using List.find?_some found
  rw [found, List.inj_on_of_nodup_map o.distinct (List.mem_of_find?_eq_some found) hf this]

/-- Names that no slot has are those that no field has. -/
theorem find?_eq_none (o : Orderly r slots) {name : Text} (unknown : ∀ s ∈ slots, s.name ≠ name) :
    r.fields.find? (fun f => f.name == name) = none := by
  have names : r.fields.map Field.name = slots.map Slot.name := by
    rw [← List.forall₂_eq_eq_eq, List.forall₂_map_left_iff, List.forall₂_map_right_iff]
    exact o.fits.imp fun _ _ fits => fits.name
  rw [List.find?_eq_none]
  intro f hf
  have : f.name ∈ slots.map Slot.name := names ▸ List.mem_map_of_mem hf
  obtain ⟨s, hs, e⟩ := List.mem_map.1 this
  simpa [← e] using unknown s hs

theorem permute (o : Orderly r slots) {ms ms' : List (Literal × Json)} (perm : ms.Perm ms') {a : α}
    (h : r.read room (ofMembers ms) = .ok a) : r.read room (ofMembers ms') = .ok a := by
  obtain ⟨less, d, deeper, collected, rest⟩ := read_ofMembers_eq_ok.1 h
  exact read_ofMembers_eq_ok.2 ⟨less, d, deeper, o.perm perm collected, rest⟩

theorem add (o : Orderly r slots) {ms : List (Literal × Json)} {key : Literal} {name : Text}
    {v : Json} (known : key.text = .ok name) (unknown : ∀ s ∈ slots, s.name ≠ name)
    (whole : v.Flawless) {a : α} (h : r.read room (ofMembers ms) = .ok a) :
    r.read room (ofMembers ((key, v) :: ms)) = .ok a := by
  obtain ⟨less, d, deeper, collected, rest⟩ := read_ofMembers_eq_ok.1 h
  refine read_ofMembers_eq_ok.2 ⟨less, d, deeper, .cons ?_ collected, rest⟩
  exact .unknown known (o.find?_eq_none unknown) whole

theorem member (o : Orderly r slots) {s : Slot} {ms : List (Literal × Json)} {key : Literal}
    {v v' : Json} (hs : s ∈ slots) (known : key.text = .ok s.name) (changed : s.change v v') {a : α}
    (h : r.read room (ofMembers ((key, v) :: ms)) = .ok a) :
    r.read room (ofMembers ((key, v') :: ms)) = .ok a := by
  obtain ⟨less, d, deeper, _ | ⟨first, later⟩, rest⟩ := read_ofMembers_eq_ok.1 h
  obtain ⟨f, -, found, fits⟩ := o.find? hs
  refine read_ofMembers_eq_ok.2 ⟨less, d, deeper, .cons ?_ later, rest⟩
  cases first with
  | field known' found' fresh stored =>
    obtain rfl := Except.ok.inj (known.symm.trans known')
    obtain rfl := Option.some.inj (found.symm.trans found')
    exact .field known found fresh (fits.change _ changed stored)
  | unknown known' unknown =>
    obtain rfl := Except.ok.inj (known.symm.trans known')
    rw [found] at unknown
    cases unknown

/-- The member is moved to the end: what is collected without it differs in its field only. -/
theorem drop (o : Orderly r slots) {s : Slot} {ms : List (Literal × Json)} {key : Literal}
    {v : Json} (hs : s ∈ slots) (known : key.text = .ok s.name) (omissible : s.omissible v) {a : α}
    (h : r.read room (ofMembers ((key, v) :: ms)) = .ok a) :
    r.read room (ofMembers ms) = .ok a := by
  have last := o.permute (List.perm_append_singleton (key, v) ms).symm h
  obtain ⟨less, e, deeper, collected, complete, built⟩ := read_ofMembers_eq_ok.1 last
  obtain ⟨d, before, stored⟩ := collectsAll_concat collected
  obtain ⟨f, hf, found, fits⟩ := o.find? hs
  cases stored with
  | field known' found' fresh stored =>
    obtain rfl := Except.ok.inj (known.symm.trans known')
    obtain rfl := Option.some.inj (found.symm.trans found')
    refine read_ofMembers_eq_ok.2 ⟨less, d, deeper, before, ?_, ?_⟩
    · intro g hg required
      have ne : f ≠ g := by
        rintro rfl
        exact fits.optional omissible required
      rw [← (o.independent.forall hf hg ne).1.isSet stored]
      exact complete g hg required
    · rw [← fits.default omissible fresh stored, built]
  | unknown known' unknown =>
    obtain rfl := Except.ok.inj (known.symm.trans known')
    rw [found] at unknown
    cases unknown

/-! ### Arrays -/

theorem place (o : Orderly r slots) {s : Slot} {before after : List Json} {v v' : Json}
    (here : slots[before.length]? = some s) (changed : s.change v v') {a : α}
    (h : r.read room (ofList (before ++ v :: after)) = .ok a) :
    r.read room (ofList (before ++ v' :: after)) = .ok a := by
  obtain ⟨less, deeper, h⟩ := enter_eq_ok.1 h
  obtain ⟨d, collected, built⟩ := bind_eq_ok.1 h
  rw [List.foldr_append, List.foldr_cons] at collected
  refine enter_eq_ok.2 ⟨less, deeper, bind_eq_ok.2 ⟨d, ?_, built⟩⟩
  rw [List.foldr_append, List.foldr_cons]
  exact collectItems_change changed o.fits here collected

/-- A record is read alike from rearranged trees. -/
theorem respects (o : Orderly r slots) : Respects r.read (Rearranged slots) := by
  intro room j j' a rearranged
  induction rearranged with
  | same => exact id
  | permute perm => exact o.permute perm
  | add known unknown whole => exact o.add known unknown whole
  | drop hs known omissible => exact o.drop hs known omissible
  | member hs known changed => exact o.member hs known changed
  | place here changed => exact o.place here changed
  | trans _ _ ih ih' => exact ih' ∘ ih

end Orderly

end Json
end BlockCanvas
