import PageDesigner.Tree.Order

/-!
Edits of a tree. An edit that has nothing to do gives no tree, so an edit that puts back equal
values is told apart from one whose target is absent.
-/

namespace PageDesigner.Node

mutual

/-- Changes the first node with the id, in pre-order. -/
def changeFirst (id : String) (change : Node → Node) : Node → Option Node
  | ⟨element, children⟩ =>
    if element.id = id then some (change ⟨element, children⟩)
    else (changeFirstIn id change children).map (Node.mk element)

def changeFirstIn (id : String) (change : Node → Node) : List Node → Option (List Node)
  | [] => none
  | node :: nodes =>
    match changeFirst id change node with
    | some changed => some (changed :: nodes)
    | none => (changeFirstIn id change nodes).map (node :: ·)

end

def update (root : Node) (id : String) (patch : ElementPatch) : Option Node :=
  changeFirst id (fun node => node.patched patch) root

/-- Merges the patch into the layout of the node with the id. -/
def updateLayout (root : Node) (id : String) (patch : LayoutPatch) : Option Node := do
  let node ← root.find? id
  root.update id { layout := some (node.element.layout.merge patch) }

/-- Merges the patch into the styles of the node with the id. -/
def updateStyles (root : Node) (id : String) (patch : Styles) : Option Node := do
  let node ← root.find? id
  root.update id { styles := some (node.element.styles.merge patch) }

def append (child parent : Node) : Node := ⟨parent.element, parent.children ++ [child]⟩

/-- Puts the child last inside the first node with the parent's id. -/
def insertChild (root : Node) (parentId : String) (child : Node) : Option Node :=
  changeFirst parentId (append child) root

mutual

/-- Removes every node with the id, together with all inside it. The root itself stays. -/
def delete (id : String) : Node → Option Node
  | ⟨element, children⟩ => (deleteIn id children).map (Node.mk element)

def deleteIn (id : String) : List Node → Option (List Node)
  | [] => none
  | node :: nodes =>
    if node.element.id = id then some ((deleteIn id nodes).getD nodes)
    else
      match delete id node, deleteIn id nodes with
      | none, none => none
      | changed, rest => some (changed.getD node :: rest.getD nodes)

end

end PageDesigner.Node
