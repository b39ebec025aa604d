import PageDesigner.Editor.Command
import PageDesigner.Exchange.Node

/-!
Commands as JSON: an object whose only key names the command and whose value holds its arguments.
Unset arguments are written as `null`.
-/

namespace PageDesigner

namespace Tool

def name : Tool → String
  | select => "select"
  | frame => "frame"
  | text => "text"

def choices : List (String × Tool) := [select, frame, text].map fun tool => (tool.name, tool)

def toJson (tool : Tool) : Json := .text tool.name

def ofJson : Json → Decoded Tool := Json.asChoice choices

end Tool

namespace Command

def arguments : Command → String × List (String × Json)
  | createProject name => ("CreateProject", [("name", .text name)])
  | addPage name => ("AddPage", [("name", .text name)])
  | deletePage pageId => ("DeletePage", [("page_id", .text pageId)])
  | renamePage pageId name => ("RenamePage", [("page_id", .text pageId), ("name", .text name)])
  | setCurrentPage pageId => ("SetCurrentPage", [("page_id", .text pageId)])
  | addNode node parentId =>
    ("AddNode", [("node", node.toJson), ("parent_id", .ofOption .text parentId)])
  | updateNode nodeId patch => ("UpdateNode", [("node_id", .text nodeId), ("patch", patch.toJson)])
  | updateNodeLayout nodeId layout =>
    ("UpdateNodeLayout", [("node_id", .text nodeId), ("layout", layout.toJson)])
  | updateNodeStyles nodeId styles =>
    ("UpdateNodeStyles", [("node_id", .text nodeId), ("styles", styles.toJson)])
  | deleteNode nodeId => ("DeleteNode", [("node_id", .text nodeId)])
  | selectNode nodeId => ("SelectNode", [("node_id", .ofOption .text nodeId)])
  | setTool tool => ("SetTool", [("tool", tool.toJson)])
  | setZoom zoom => ("SetZoom", [("zoom", .ofFloat zoom)])

def toJson (command : Command) : Json :=
  let (variant, members) := command.arguments
  .object [(variant, .object members)]

def variants : List (String × Fields Command) :=
  [("CreateProject", createProject <$> .required "name" Json.asText),
    ("AddPage", addPage <$> .required "name" Json.asText),
    ("DeletePage", deletePage <$> .required "page_id" Json.asText),
    ("RenamePage",
      renamePage <$> .required "page_id" Json.asText <*> .required "name" Json.asText),
    ("SetCurrentPage", setCurrentPage <$> .required "page_id" Json.asText),
    ("AddNode",
      addNode <$> .required "node" Node.ofJson <*> .optional "parent_id" Json.asText false),
    ("UpdateNode",
      updateNode <$> .required "node_id" Json.asText <*> .required "patch" ElementPatch.ofJson),
    ("UpdateNodeLayout",
      updateNodeLayout <$> .required "node_id" Json.asText
        <*> .required "layout" LayoutPatch.ofJson),
    ("UpdateNodeStyles",
      updateNodeStyles <$> .required "node_id" Json.asText <*> .required "styles" Styles.ofJson),
    ("DeleteNode", deleteNode <$> .required "node_id" Json.asText),
    ("SelectNode", selectNode <$> .optional "node_id" Json.asText false),
    ("SetTool", setTool <$> .required "tool" Tool.ofJson),
    ("SetZoom", setZoom <$> .required "zoom" Json.asFloat)]

/-- The arguments of the named command. -/
def variant? (name : String) : Decoded (Fields Command) := Json.choose variants name

/-- A second key is noticed only after the first one's arguments. -/
def ofJson : Json → Decoded Command
  | .object ((name, body) :: others) => do
    let command ← (← variant? name).decode body
    if others.isEmpty then .ok command else .error .mismatch
  | .text name => do
    let _ ← variant? name
    .error .mismatch
  | _ => .error .mismatch

end Command
end PageDesigner
