import PageDesigner.Document.Node
import PageDesigner.Exchange.Layout
import PageDesigner.Exchange.Styles

/-!
Nodes and partial elements as JSON. A node always writes its styles and children and leaves unset
content out; a partial element writes unset parts as `null`.
-/

namespace PageDesigner

namespace Kind

def name : Kind → String
  | frame => "frame"
  | text => "text"
  | image => "image"

def choices : List (String × Kind) := [frame, text, image].map fun kind => (kind.name, kind)

def toJson (kind : Kind) : Json := .text kind.name

def ofJson : Json → Decoded Kind := Json.asChoice choices

end Kind

namespace Content

def toJson (content : Content) : Json :=
  .object <|
    Json.present "text" Json.text content.text ++ Json.present "src" Json.text content.src ++
    Json.present "alt" Json.text content.alt

def fields : Fields Content :=
  mk <$> .optional "text" Json.asText <*> .optional "src" Json.asText
    <*> .optional "alt" Json.asText

def ofJson : Json → Decoded Content := fields.decode

end Content

namespace ElementPatch

def toJson (patch : ElementPatch) : Json :=
  .object
    [("name", .ofOption .text patch.name), ("layout", .ofOption Layout.toJson patch.layout),
      ("styles", .ofOption Styles.toJson patch.styles),
      ("content", .ofOption Content.toJson patch.content)]

def fields : Fields ElementPatch :=
  mk <$> .optional "name" Json.asText <*> .optional "layout" Layout.ofJson
    <*> .optional "styles" Styles.ofJson <*> .optional "content" Content.ofJson

def ofJson : Json → Decoded ElementPatch := fields.decode

end ElementPatch

namespace Node

def elementMembers (element : Element) : List (String × Json) :=
  [("id", .text element.id), ("type", element.kind.toJson), ("name", .text element.name),
    ("layout", element.layout.toJson), ("styles", element.styles.toJson)] ++
  Json.present "content" Content.toJson element.content

mutual

def toJson : Node → Json
  | ⟨element, children⟩ =>
    .object (elementMembers element ++ [("children", .array (toJsonAll children))])

def toJsonAll : List Node → List Json
  | [] => []
  | node :: nodes => node.toJson :: toJsonAll nodes

end

/-- The fields of a node, given those of its children. -/
def fields (children : Fields (List Node)) : Fields Node :=
  (fun id kind name layout styles content children =>
      ⟨⟨id, kind, name, layout, styles, content⟩, children⟩)
    <$> .required "id" Json.asText <*> .required "type" Kind.ofJson
    <*> .required "name" Json.asText <*> .required "layout" Layout.ofJson
    <*> .defaulted "styles" {} Styles.ofJson <*> .optional "content" Content.ofJson
    <*> children

/-- The field of the children, given all that was decoded for it. -/
def childrenField (given : List (Nat × Decoded (List Node))) : Fields (List Node) where
  declared := [⟨"children", true⟩]
  ofMembers _ := Fields.single "children" (.ok []) given

mutual

def ofJson : Json → Decoded Node
  | .object members =>
    (fields (childrenField (childOccurrences 0 members))).decode (.object members)
  | .array items =>
    let keys := (fields (childrenField [])).keys
    (fields (childrenField (childItems 0 keys items))).decode (.array items)
  | _ => .error .mismatch
termination_by structural value => value

/-- Every value given for the children, decoded, with its position among the members. -/
def childOccurrences : Nat → List (String × Json) → List (Nat × Decoded (List Node))
  | _, [] => []
  | position, (name, value) :: members =>
    if name = "children" then (position, ofJsonList value) :: childOccurrences (position + 1) members
    else childOccurrences (position + 1) members
termination_by structural _ members => members

/-- The same of a node that is given by its items, next to the keys of its fields. -/
def childItems : Nat → List String → List Json → List (Nat × Decoded (List Node))
  | position, key :: keys, item :: items =>
    if key = "children" then (position, ofJsonList item) :: childItems (position + 1) keys items
    else childItems (position + 1) keys items
  | _, _, _ => []
termination_by structural _ _ items => items

def ofJsonList : Json → Decoded (List Node)
  | .array items => ofJsonAll items
  | _ => .error .mismatch
termination_by structural value => value

def ofJsonAll : List Json → Decoded (List Node)
  | [] => .ok []
  | item :: items =>
    match ofJson item with
    | .error error => .error error
    | .ok first =>
      match ofJsonAll items with
      | .error error => .error error
      | .ok rest => .ok (first :: rest)
termination_by structural items => items

end

end Node
end PageDesigner
