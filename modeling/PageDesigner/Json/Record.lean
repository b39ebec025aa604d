import PageDesigner.Json.Basic

/-!
Decoding JSON values, and records from the values of their fields.

A record is spelled as an object with the fields' values under their keys, or as an array of these
values in the order in which the fields are declared. In an object each field is looked up by its
key, so the order of members and the presence of other keys have no influence on the record. An
array has no other items, and it may only end before the items of fields that have a default. One of
a fixed choice of names is spelled as its name, or as an object in which the name is the only key
and holds `null`.

Of several faults the one that stands first in the document is reported, and a field that is absent
only shows once all members have been seen.
-/

namespace PageDesigner

/-- Why a well-formed JSON value does not denote the expected one. -/
inductive DecodeError where
  | missingField (key : String)
  | duplicateField (key : String)
  | unknownVariant (name : String) (expected : List String)
  | mismatch
  deriving DecidableEq, Repr

namespace DecodeError

def quote (name : String) : String := "`" ++ name ++ "`"

def expectation : List String → String
  | [only] => "expected " ++ quote only
  | [first, second] => "expected " ++ quote first ++ " or " ++ quote second
  | names => "expected one of " ++ ", ".intercalate (names.map quote)

def message? : DecodeError → Option String
  | missingField key => some ("missing field " ++ quote key)
  | duplicateField key => some ("duplicate field " ++ quote key)
  | unknownVariant name expected =>
    some ("unknown variant " ++ quote name ++ ", " ++ expectation expected)
  | mismatch => none

end DecodeError

abbrev Decoded (α : Type) := Except DecodeError α

namespace Json

def asText : Json → Decoded String
  | .text value => .ok value
  | _ => .error .mismatch

/-- Any number serves where a double is expected. -/
def asFloat : Json → Decoded Float
  | .number value => if value.toFloat.isFinite then .ok value.toFloat else .error .mismatch
  | _ => .error .mismatch

/-- Only a non-negative whole literal below `2 ^ 64` serves where a count is expected. -/
def asNatural : Json → Decoded UInt64
  | .number (.natural value) => .ok value
  | _ => .error .mismatch

def allOf {α : Type} (decode : Json → Decoded α) : List Json → Decoded (List α)
  | [] => .ok []
  | item :: items =>
    match decode item with
    | .error error => .error error
    | .ok first =>
      match allOf decode items with
      | .error error => .error error
      | .ok rest => .ok (first :: rest)

def asList {α : Type} (decode : Json → Decoded α) : Json → Decoded (List α)
  | .array items => allOf decode items
  | _ => .error .mismatch

/-- `null` stands for an unset value. -/
def asOption {α : Type} (decode : Json → Decoded α) : Json → Decoded (Option α)
  | .null => .ok none
  | value => (decode value).map some

/-- What stands under a name that has to be one of those given. -/
def choose {α : Type} (choices : List (String × α)) (name : String) : Decoded α :=
  match choices.lookup name with
  | some value => .ok value
  | none => .error (.unknownVariant name (choices.map Prod.fst))

/-- One of a fixed choice of names. What an object holds under the name is looked at after it. -/
def asChoice {α : Type} (choices : List (String × α)) : Json → Decoded α
  | .text name => choose choices name
  | .object ((name, body) :: others) => do
    let value ← choose choices name
    match body, others with
    | .null, [] => .ok value
    | _, _ => .error .mismatch
  | _ => .error .mismatch

end Json

/-- A fault in a record, with the number of members or items that were sound before it showed. -/
structure Fault where
  position : Nat
  error : DecodeError

namespace Fault

def earlier (a b : Fault) : Fault := if b.position < a.position then b else a

end Fault

/-- A field as its record declares it. -/
structure Declaration where
  key : String
  /-- The field has a value of its own where an array ends before its item. -/
  hasDefault : Bool

/-- A decoder of some fields of a record, in the order in which they are declared, from the values
under their keys. -/
structure Fields (α : Type) where
  declared : List Declaration
  ofMembers : List (String × Json) → Except Fault α

namespace Fields

variable {α β : Type}

def combine : Except Fault (α → β) → Except Fault α → Except Fault β
  | .ok f, .ok value => .ok (f value)
  | .ok _, .error fault => .error fault
  | .error fault, .ok _ => .error fault
  | .error first, .error second => .error (first.earlier second)

instance : Applicative Fields where
  pure value := ⟨[], fun _ => .ok value⟩
  seq f x :=
    ⟨f.declared ++ (x ()).declared,
      fun members => combine (f.ofMembers members) ((x ()).ofMembers members)⟩

/-- Every value given for a key, decoded, with its position among the members. -/
def occurrences (key : String) (decode : Json → Decoded α) :
    Nat → List (String × Json) → List (Nat × Decoded α)
  | _, [] => []
  | position, (name, value) :: members =>
    if name = key then (position, decode value) :: occurrences key decode (position + 1) members
    else occurrences key decode (position + 1) members

/-- A key may be given once. The first value is decoded before a second one is noticed. -/
def single (key : String) (absent : Except Fault α) : List (Nat × Decoded α) → Except Fault α
  | [] => absent
  | (position, .error error) :: _ => .error ⟨position, error⟩
  | [(_, .ok value)] => .ok value
  | (_, .ok _) :: (position, _) :: _ => .error ⟨position, .duplicateField key⟩

def field (key : String) (hasDefault : Bool) (absent : Except DecodeError α)
    (decode : Json → Decoded α) : Fields α where
  declared := [⟨key, hasDefault⟩]
  ofMembers members :=
    single key (absent.mapError (Fault.mk members.length)) (occurrences key decode 0 members)

def required (key : String) (decode : Json → Decoded α) : Fields α :=
  field key false (.error (.missingField key)) decode

/-- A field that is unset when its key is absent or holds `null`. Without a default its item has to
be there and be `null`. -/
def optional (key : String) (decode : Json → Decoded α) (hasDefault : Bool := true) :
    Fields (Option α) :=
  field key hasDefault (.ok none) (Json.asOption decode)

/-- A field with a value of its own when its key is absent; `null` is no value for it. -/
def defaulted (key : String) (value : α) (decode : Json → Decoded α) : Fields α :=
  field key true (.ok value) decode

def keys (fields : Fields α) : List String := fields.declared.map Declaration.key

/-- The items of an array as the members of an object. Those beyond the last field are left out. -/
def named (fields : Fields α) (items : List Json) : List (String × Json) := fields.keys.zip items

/-- An array with as many items has none too many, and all fields without a default have one. -/
def fits (fields : Fields α) (count : Nat) : Bool :=
  count ≤ fields.declared.length && (fields.declared.drop count).all Declaration.hasDefault

/-- A fault behind the last item is that there is none, and not that a key is missing. -/
def decode (fields : Fields α) : Json → Decoded α
  | .object members => (fields.ofMembers members).mapError Fault.error
  | .array items =>
    match fields.ofMembers (fields.named items) with
    | .error fault => .error (if fault.position < items.length then fault.error else .mismatch)
    | .ok value => if fields.fits items.length then .ok value else .error .mismatch
  | _ => .error .mismatch

end Fields
end PageDesigner
