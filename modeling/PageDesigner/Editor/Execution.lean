import PageDesigner.Editor.Transition

/-!
Commands carried out in place. A command reads from a desk and writes to it, one field after the
other; what it has written by the time it is rejected stays written. `Workspace.apply` gives the
outcome of a whole command at once.
-/

namespace PageDesigner

/-- All that a command may write to. -/
structure Desk where
  workspace : Workspace
  ids : IdSource
  deriving DecidableEq, Repr

/-- A rejection does not take back what was written before it. -/
abbrev Edit := ExceptT Rejection (StateM Desk)

namespace Edit

/-- The answer of an edit, with the desk as the edit leaves it. -/
def on {α : Type} (edit : Edit α) (desk : Desk) : Except Rejection α × Desk := edit.run.run desk

def workspace : Edit Workspace := do return (← get).workspace

def write (change : Workspace → Workspace) : Edit Unit :=
  modify fun desk => { desk with workspace := change desk.workspace }

def require {α : Type} (reason : Rejection) : Option α → Edit α
  | some value => pure value
  | none => throw reason

def refuseIf (condition : Bool) (reason : Rejection) : Edit Unit :=
  if condition then throw reason else pure ()

def mintId : Edit String :=
  modifyGet fun desk => (desk.ids.mint.1, { desk with ids := desk.ids.mint.2 })

def openProject : Edit Project := do require .noProject (← workspace).project

def shownPage : Edit Page := do require .noCurrentPage (← workspace).page?

def writeProject (change : Project → Project) : Edit Unit :=
  write fun workspace => { workspace with project := workspace.project.map change }

def writePageId (pageId : Option String) : Edit Unit :=
  write fun workspace => { workspace with pageId }

def writeSelection (selectedId : Option String) : Edit Unit :=
  write fun workspace => { workspace with selectedId }

def writeRoot (root : Node) : Edit Unit := write fun workspace => workspace.withRoot root

def newPage (name : String) : Edit Page := do
  let pageId ← mintId
  let rootId ← mintId
  return Page.blank pageId name rootId

def createProject (name : String) : Edit Unit := do
  let projectId ← mintId
  let page ← newPage firstPageName
  writePageId (some page.id)
  writeSelection none
  write fun workspace => { workspace with project := some (Project.single projectId name page) }

def addPage (name : String) : Edit Unit := do
  let _ ← openProject
  let page ← newPage name
  writePageId (some page.id)
  writeSelection none
  writeProject fun project => { project with pages := project.pages ++ [page] }

def deletePage (id : String) : Edit Unit := do
  let project ← openProject
  let place ← require (.pageNotFound id) (project.pages.findIdx? fun page => page.id = id)
  refuseIf (project.pages.length ≤ 1) .lastPage
  let pages := project.pages.eraseIdx place
  writeProject fun project => { project with pages }
  if (← workspace).pageId = some id then
    writePageId (pages.head?.map Page.id)
    writeSelection none

def renamePage (id name : String) : Edit Unit := do
  let project ← openProject
  let _ ← require (.pageNotFound id) (project.page? id)
  writeProject fun project => project.modifyPage id fun page => { page with name }

def setCurrentPage (id : String) : Edit Unit := do
  let project ← openProject
  let _ ← require (.pageNotFound id) (project.page? id)
  writePageId (some id)
  writeSelection none

def addNode (node : Node) (parentId : Option String) : Edit Unit := do
  let page ← shownPage
  let parent := parentId.getD page.root.id
  refuseIf (!page.root.contains parent) (.nodeNotFound parent)
  refuseIf (page.root.contains node.id) (.duplicateNodeId node.id)
  writeRoot ((page.root.insertChild parent node).getD page.root)
  writeSelection (some node.id)

def editNode (id : String) (edit : Node → Option Node) : Edit Unit := do
  let page ← shownPage
  refuseIf (!page.root.contains id) (.nodeNotFound id)
  writeRoot ((edit page.root).getD page.root)

/-- The page is looked up again for the writing, after the new tree is made. -/
def deleteNode (id : String) : Edit Unit := do
  let page ← shownPage
  refuseIf (page.root.id = id) (.rootNode id)
  let removed ← require (.nodeNotFound id) (page.root.find? id)
  let selectionGoes := (← workspace).selectedId.any removed.contains
  let root := (page.root.delete id).getD page.root
  let _ ← shownPage
  writeRoot root
  if selectionGoes then writeSelection none

def setZoom (zoom : Float) : Edit Unit := do
  refuseIf zoom.isNaN .invalidZoom
  write fun workspace => { workspace with zoom := Workspace.clampZoom zoom }

end Edit

def Command.execute : Command → Edit Unit
  | createProject name => Edit.createProject name
  | addPage name => Edit.addPage name
  | deletePage pageId => Edit.deletePage pageId
  | renamePage pageId name => Edit.renamePage pageId name
  | setCurrentPage pageId => Edit.setCurrentPage pageId
  | addNode node parentId => Edit.addNode node parentId
  | updateNode id patch => Edit.editNode id fun root => root.update id patch
  | updateNodeLayout id layout => Edit.editNode id fun root => root.updateLayout id layout
  | updateNodeStyles id styles => Edit.editNode id fun root => root.updateStyles id styles
  | deleteNode id => Edit.deleteNode id
  | selectNode id => Edit.writeSelection id
  | setTool tool => Edit.write fun workspace => { workspace with tool }
  | setZoom zoom => Edit.setZoom zoom

end PageDesigner
