import PageDesigner.Json.Basic

/-!
The keys that the records of the format know, and the changes to a value that its reader cannot tell:
another order of a record's members, a member under a key that the record does not know, and `null`
in the place of an unset member that is left out.
-/

namespace PageDesigner

/-- The arguments of a command are a record like any other. -/
inductive RecordType where
  | layout
  | layoutPatch
  | styles
  | content
  | elementPatch
  | node
  | page
  | project
  | options
  | arguments (command : String)

/-- Where in a value there are records. -/
inductive Shape where
  | plain
  | record (type : RecordType)
  | list (type : RecordType)
  | command

/-- What a record expects under a key. Only an optional member may be `null` where it is unset; one
with a default of its own may be left out but not be `null`. -/
structure Key where
  isOptional : Bool := false
  shape : Shape := .plain

namespace Key

def needed (names : List String) : List (String × Key) := names.map fun name => (name, {})

def optional (names : List String) : List (String × Key) :=
  names.map fun name => (name, { isOptional := true })

/-- The keys of each command's arguments. -/
def ofCommands : List (String × List (String × Key)) :=
  [("CreateProject", needed ["name"]),
    ("AddPage", needed ["name"]),
    ("DeletePage", needed ["page_id"]),
    ("RenamePage", needed ["page_id", "name"]),
    ("SetCurrentPage", needed ["page_id"]),
    ("AddNode", ("node", { shape := .record .node }) :: optional ["parent_id"]),
    ("UpdateNode", needed ["node_id"] ++ [("patch", { shape := .record .elementPatch })]),
    ("UpdateNodeLayout", needed ["node_id"] ++ [("layout", { shape := .record .layoutPatch })]),
    ("UpdateNodeStyles", needed ["node_id"] ++ [("styles", { shape := .record .styles })]),
    ("DeleteNode", needed ["node_id"]),
    ("SelectNode", optional ["node_id"]),
    ("SetTool", needed ["tool"]),
    ("SetZoom", needed ["zoom"])]

end Key

namespace RecordType

/-- In the order in which the record declares them. -/
def keys : RecordType → List (String × Key)
  | layout =>
    Key.needed ["x", "y", "width", "height"] ++
      Key.optional ["display", "flexDirection", "justifyContent", "alignItems", "gap"]
  | layoutPatch =>
    Key.optional
      ["x", "y", "width", "height", "display", "flexDirection", "justifyContent", "alignItems", "gap"]
  | styles =>
    Key.optional
      ["backgroundColor", "color", "fontSize", "fontWeight", "padding", "borderRadius",
        "borderWidth", "borderColor", "opacity"]
  | content => Key.optional ["text", "src", "alt"]
  | elementPatch =>
    Key.optional ["name"] ++
      [("layout", { isOptional := true, shape := .record .layout }),
        ("styles", { isOptional := true, shape := .record .styles }),
        ("content", { isOptional := true, shape := .record .content })]
  | node =>
    Key.needed ["id", "type", "name"] ++
      [("layout", { shape := .record .layout }), ("styles", { shape := .record .styles }),
        ("content", { isOptional := true, shape := .record .content }),
        ("children", { shape := .list .node })]
  | page => Key.needed ["id", "name"] ++ [("root", { shape := .record .node })]
  | project => Key.needed ["id", "name"] ++ [("pages", { shape := .list .page })]
  | options => Key.needed ["indentWidth", "componentSuffix", "placeholderSrc", "defaultText"]
  | arguments command => (Key.ofCommands.lookup command).getD []

def key? (type : RecordType) (name : String) : Option Key := type.keys.lookup name

def names (type : RecordType) : List String := type.keys.map Prod.fst

end RecordType

/-- One change to a record that is given as an object, at any depth. A record around it may be given
as an array. The object that names a command keeps its one member. -/
inductive Rewording : Shape → Json → Json → Prop
  | permuted {type : RecordType} {members others : List (String × Json)} :
      members.Perm others → Rewording (.record type) (.object members) (.object others)
  | extended {type : RecordType} {name : String} (front : List (String × Json)) (value : Json)
      (back : List (String × Json)) : type.key? name = none →
      Rewording (.record type) (.object (front ++ back)) (.object (front ++ (name, value) :: back))
  | unset {type : RecordType} {name : String} {key : Key} (front back : List (String × Json)) :
      type.key? name = some key → key.isOptional = true →
      (∀ member ∈ front ++ back, member.1 ≠ name) →
      Rewording (.record type) (.object (front ++ (name, .null) :: back)) (.object (front ++ back))
  | member {type : RecordType} {name : String} {key : Key} {before after : Json}
      (front back : List (String × Json)) :
      type.key? name = some key → Rewording key.shape before after →
      Rewording (.record type) (.object (front ++ (name, before) :: back))
        (.object (front ++ (name, after) :: back))
  | place {type : RecordType} {name : String} {key : Key} {before after : Json}
      (front back : List Json) :
      type.names[front.length]? = some name → type.key? name = some key →
      Rewording key.shape before after →
      Rewording (.record type) (.array (front ++ before :: back)) (.array (front ++ after :: back))
  | item {type : RecordType} {before after : Json} (front back : List Json) :
      Rewording (.record type) before after →
      Rewording (.list type) (.array (front ++ before :: back)) (.array (front ++ after :: back))
  | arguments {name : String} {before after : Json} :
      Rewording (.record (.arguments name)) before after →
      Rewording .command (.object [(name, before)]) (.object [(name, after)])

end PageDesigner
