/-!
JSON values. An object keeps its members in the order of the text and keeps repeated keys, so a
decoder can tell a repeated key from a single one. A value that a text writes correctly but that
cannot be held leaves a mark in its place, so that it only matters where it is asked for.
-/

namespace PageDesigner

/-- A JSON number: a non-negative whole literal that fits 64 bits keeps its exact value, and every
other literal is the nearest double. -/
inductive Number where
  | natural (value : UInt64)
  | real (value : Float)
  deriving DecidableEq, Repr

inductive Json where
  | null
  | bool (value : Bool)
  | number (value : Number)
  | text (value : String)
  | array (items : List Json)
  | object (members : List (String × Json))
  /-- Stands for a number beyond the largest double, a text with half of a surrogate pair, or a
  container that is nested too deeply. -/
  | unread
  deriving Repr

namespace Number

def toFloat : Number → Float
  | .natural value => value.toFloat
  | .real value => value

end Number

namespace Json

/-- A double without a decimal form has no JSON number, and `null` stands in its place. -/
def ofFloat (value : Float) : Json :=
  if value.isFinite then .number (.real value) else .null

def ofOption {α : Type} (encode : α → Json) : Option α → Json
  | none => .null
  | some value => encode value

/-- An object member that is present exactly when its value is. -/
def present {α : Type} (key : String) (encode : α → Json) : Option α → List (String × Json)
  | none => []
  | some value => [(key, encode value)]

mutual

/-- Whether nothing in the value is unread. -/
def fullyRead : Json → Bool
  | .unread => false
  | .array items => fullyReadItems items
  | .object members => fullyReadMembers members
  | _ => true

def fullyReadItems : List Json → Bool
  | [] => true
  | item :: items => item.fullyRead && fullyReadItems items

def fullyReadMembers : List (String × Json) → Bool
  | [] => true
  | (_, value) :: members => value.fullyRead && fullyReadMembers members

end

end Json
end PageDesigner
