import BlockCanvas.Document.Json.Token

/-!
# JSON trees

A JSON text as a tree.  Every text has one: where it stops being JSON, the tree says so, and what
comes before that place is there to be read.  A reader that walks a tree in order meets the first
problem of the text first.
-/

namespace BlockCanvas

mutual

/-- A JSON value, or what stands in its place. -/
inductive Json where
  | null
  | bool (b : Bool)
  | number (n : Numeral)
  | string (s : Json.Literal)
  | array (items : Json.Items)
  | object (members : Json.Members)
  /-- A number at the end of the text that lacks a digit. -/
  | cutNumber
  /-- Something that is no value. -/
  | garbled (f : Json.Flaw)
  /-- The end of the text. -/
  | missing

/-- The items of an array, up to its end or to the place where it breaks off. -/
inductive Json.Items where
  | close
  | broken (f : Json.Flaw)
  | cons (head : Json) (tail : Json.Items)

/-- The members of an object, up to its end or to the place where it breaks off. -/
inductive Json.Members where
  | close
  | broken (f : Json.Flaw)
  /-- After a comma no key follows. -/
  | dangling (f : Json.Flaw)
  | cons (key : Json.Literal) (value : Json) (tail : Json.Members)

end

namespace Json

/-! ### Reading tokens -/

/-- The flaw of a text that goes on with these tokens where something else is due. -/
def flawAt : List Token → Flaw
  | [] => .cutShort
  | _ :: _ => .malformed

mutual

/-- The value at the head of a token list, and the tokens after it; `fuel` bounds the recursion. -/
def value (fuel : Nat) (ts : List Token) : Json × List Token :=
  match fuel, ts with
  | 0, ts => (.missing, ts)
  | _ + 1, [] => (.missing, [])
  | _ + 1, .null :: ts => (.null, ts)
  | _ + 1, .bool b :: ts => (.bool b, ts)
  | _ + 1, .number n :: ts => (.number n, ts)
  | _ + 1, .string s :: ts => (.string s, ts)
  | _ + 1, .cutNumber :: ts => (.cutNumber, ts)
  | _ + 1, .garbled f :: ts => (.garbled f, ts)
  | fuel + 1, .openArray :: ts =>
    match ts with
    | .closeArray :: ts => (.array .close, ts)
    | [] => (.array (.broken .cutShort), [])
    | ts => let (is, ts) := items fuel ts; (.array is, ts)
  | fuel + 1, .openObject :: ts =>
    match ts with
    | .closeObject :: ts => (.object .close, ts)
    | .string key :: ts => let (ms, ts) := members fuel key ts; (.object ms, ts)
    | ts => (.object (.broken (flawAt ts)), ts)
  | _ + 1, _ :: ts => (.garbled .malformed, ts)

/-- The items of an array from a value on. -/
def items (fuel : Nat) (ts : List Token) : Items × List Token :=
  match fuel with
  | 0 => (.broken .cutShort, ts)
  | fuel + 1 =>
    let (head, ts) := value fuel ts
    match ts with
    | .closeArray :: ts => (.cons head .close, ts)
    | .comma :: ts => let (tail, ts) := items fuel ts; (.cons head tail, ts)
    | ts => (.cons head (.broken (flawAt ts)), ts)

/-- The members of an object from after a key on. -/
def members (fuel : Nat) (key : Literal) (ts : List Token) : Members × List Token :=
  match fuel with
  | 0 => (.broken .cutShort, ts)
  | fuel + 1 =>
    match ts with
    | .colon :: ts =>
      let (v, ts) := value fuel ts
      match ts with
      | .closeObject :: ts => (.cons key v .close, ts)
      | .comma :: .string next :: ts =>
        let (tail, ts) := members fuel next ts
        (.cons key v tail, ts)
      | .comma :: ts => (.cons key v (.dangling (flawAt ts)), ts)
      | ts => (.cons key v (.broken (flawAt ts)), ts)
    | [] => (.cons key .missing .close, [])
    | ts => (.cons key (.garbled .malformed) .close, ts)

end

/-- The value that a text starts with, and whether it is all of the text.  Each token takes at most
two steps of the recursion. -/
def parse (s : Text) : Json × Bool :=
  let ts := tokens s
  let (j, rest) := value (2 * ts.length + 1) ts
  (j, rest.isEmpty)

/-! ### Skipping -/

/-- The outcome for a literal that is not looked at: half surrogate pairs do no harm. -/
def Literal.skip (s : Literal) : Except Flaw Unit :=
  match s.flaw with
  | none => .ok ()
  | some f => .error f

mutual

/-- The first flaw of a value that is not looked at, if it has one. -/
def skip : Json → Except Flaw Unit
  | .null | .bool _ | .number _ => .ok ()
  | .string s => s.skip
  | .array is => skipItems is
  | .object ms => skipMembers ms
  | .cutNumber => .error .malformed
  | .garbled f => .error f
  | .missing => .error .cutShort

def skipItems : Items → Except Flaw Unit
  | .close => .ok ()
  | .broken f => .error f
  | .cons head tail => do
    skip head
    skipItems tail

def skipMembers : Members → Except Flaw Unit
  | .close => .ok ()
  | .broken f | .dangling f => .error f
  | .cons key v tail => do
    key.skip
    skip v
    skipMembers tail

end

/-! ### Building -/

/-- The string value of a text. -/
def ofText (s : Text) : Json := .string (.ofText s)

/-- The value of a text that may be absent. -/
def ofOption : Option Text → Json
  | none => .null
  | some s => ofText s

/-- The array of values. -/
def ofList (js : List Json) : Json := .array (js.foldr .cons .close)

/-- The object of named values. -/
def ofFields (fields : List (Text × Json)) : Json :=
  .object (fields.foldr (fun f tail => .cons (.ofText f.1) f.2 tail) .close)

end Json
end BlockCanvas
