import PageDesigner.Json.Token

/-!
JSON text to a JSON value. The reader takes one token at a time and keeps the containers that are
still open; each state says which tokens may follow.
-/

namespace PageDesigner.Json

namespace Reader

/-- The members of an object so far, in reverse, as long as all their keys have a value. -/
abbrev Members := Option (List (String × Json))

/-- An open container: what it holds so far, and the key whose value is due. -/
inductive Frame where
  | array (before : List Json)
  | object (before : Members) (key : Option String)

end Reader

inductive Reader where
  | valueDue (frames : List Reader.Frame)
  | arrayOpened (frames : List Reader.Frame)
  | objectOpened (frames : List Reader.Frame)
  | keyDue (before : Reader.Members) (frames : List Reader.Frame)
  | colonDue (before : Reader.Members) (key : Option String) (frames : List Reader.Frame)
  | complete (result : Json) (frames : List Reader.Frame)

namespace Reader

def member (before : Members) (key : Option String) (value : Json) : Members :=
  match before, key with
  | some members, some key => some ((key, value) :: members)
  | _, _ => none

/-- A container that has closed, inside those of `frames`. At most `limit` may enclose it. -/
def closed (limit : Nat) (frames : List Frame) (container : Json) : Reader :=
  .complete (if (frames.drop limit).isEmpty then container else .unread) frames

def closedArray (limit : Nat) (frames : List Frame) (items : List Json) : Reader :=
  closed limit frames (.array items.reverse)

def closedObject (limit : Nat) (frames : List Frame) (members : Members) : Reader :=
  closed limit frames (members.elim .unread fun members => .object members.reverse)

def beginValue (frames : List Frame) : Token → Option Reader
  | .openObject => some (.objectOpened frames)
  | .openArray => some (.arrayOpened frames)
  | .text value => some (.complete (value.elim .unread .text) frames)
  | .scalar value => some (.complete value frames)
  | _ => none

def afterValue (limit : Nat) (value : Json) : List Frame → Token → Option Reader
  | .array before :: frames, .comma => some (.valueDue (.array (value :: before) :: frames))
  | .array before :: frames, .closeArray => some (closedArray limit frames (value :: before))
  | .object before key :: frames, .comma => some (.keyDue (member before key value) frames)
  | .object before key :: frames, .closeObject =>
    some (closedObject limit frames (member before key value))
  | _, _ => none

def step (limit : Nat) : Reader → Token → Option Reader
  | .valueDue frames, token => beginValue frames token
  | .arrayOpened frames, .closeArray => some (closedArray limit frames [])
  | .arrayOpened frames, token => beginValue (.array [] :: frames) token
  | .objectOpened frames, .closeObject => some (closedObject limit frames (some []))
  | .objectOpened frames, .text key => some (.colonDue (some []) key frames)
  | .keyDue before frames, .text key => some (.colonDue before key frames)
  | .colonDue before key frames, .colon => some (.valueDue (.object before key :: frames))
  | .complete value frames, token => afterValue limit value frames token
  | _, _ => none

def finish : Reader → Option Json
  | .complete value [] => some value
  | _ => none

end Reader

/-- A container of a document is left unread inside more containers than these. -/
def nestingLimit : Nat := 126

/-- The value of a text that is exactly one JSON value. Containers inside more than `limit` others
are left unread. -/
def parseWithin (limit : Nat) (text : String) : Option Json := do
  let tokens ← tokens? text.toList
  (← tokens.foldlM (Reader.step limit) (.valueDue [])).finish

def parse (text : String) : Option Json := parseWithin nestingLimit text

end PageDesigner.Json
