import PageDesigner.Editor.Workspace

/-!
The commands of the editor.
-/

namespace PageDesigner

inductive Command where
  | createProject (name : String)
  | addPage (name : String)
  | deletePage (pageId : String)
  | renamePage (pageId name : String)
  | setCurrentPage (pageId : String)
  /-- Without a parent the node goes under the page's root. -/
  | addNode (node : Node) (parentId : Option String)
  | updateNode (nodeId : String) (patch : ElementPatch)
  | updateNodeLayout (nodeId : String) (layout : LayoutPatch)
  | updateNodeStyles (nodeId : String) (styles : Styles)
  | deleteNode (nodeId : String)
  | selectNode (nodeId : Option String)
  | setTool (tool : Tool)
  | setZoom (zoom : Float)
  deriving DecidableEq, Repr

def Command.name : Command → String
  | createProject .. => "create_project"
  | addPage .. => "add_page"
  | deletePage .. => "delete_page"
  | renamePage .. => "rename_page"
  | setCurrentPage .. => "set_current_page"
  | addNode .. => "add_node"
  | updateNode .. => "update_node"
  | updateNodeLayout .. => "update_node_layout"
  | updateNodeStyles .. => "update_node_styles"
  | deleteNode .. => "delete_node"
  | selectNode .. => "select_node"
  | setTool .. => "set_tool"
  | setZoom .. => "set_zoom"

end PageDesigner
