import PageDesigner.Editor.Command
import PageDesigner.Editor.Rejection
import PageDesigner.Identity.Source

/-!
What each command does to a workspace. A command gives the workspace that follows, together with the
id source where it mints ids, or the reason why it is rejected.
-/

namespace PageDesigner

/-- The page that every new project starts with. -/
def firstPageName : String := "Home"

/-- A blank page under two fresh ids, its own and then its root's. -/
def mintPage (ids : IdSource) (name : String) : Page × IdSource :=
  let (pageId, ids) := ids.mint
  let (rootId, ids) := ids.mint
  (Page.blank pageId name rootId, ids)

namespace Workspace

abbrev Outcome := Except Rejection Workspace

def createProject (workspace : Workspace) (ids : IdSource) (name : String) : Workspace × IdSource :=
  let (projectId, ids) := ids.mint
  let (page, ids) := mintPage ids firstPageName
  ({ workspace with
      project := some (Project.single projectId name page)
      pageId := some page.id
      selectedId := none }, ids)

def addPage (workspace : Workspace) (ids : IdSource) (name : String) :
    Except Rejection (Workspace × IdSource) :=
  match workspace.project with
  | none => .error .noProject
  | some project =>
    let (page, ids) := mintPage ids name
    .ok ({ workspace with
      project := some { project with pages := project.pages ++ [page] }
      pageId := some page.id
      selectedId := none }, ids)

/-- When the page on display goes, the first of those left takes its place. -/
def deletePage (workspace : Workspace) (id : String) : Outcome :=
  match workspace.project with
  | none => .error .noProject
  | some project =>
    if (project.page? id).isNone then .error (.pageNotFound id)
    else if project.pages.length ≤ 1 then .error .lastPage
    else
      let pages := project.pages.eraseP fun page => page.id = id
      let remaining := { workspace with project := some { project with pages } }
      .ok (if workspace.pageId = some id then
        { remaining with pageId := pages.head?.map Page.id, selectedId := none }
      else remaining)

def renamePage (workspace : Workspace) (id name : String) : Outcome :=
  match workspace.project with
  | none => .error .noProject
  | some project =>
    if (project.page? id).isNone then .error (.pageNotFound id)
    else .ok { workspace with project := some (project.modifyPage id fun page => { page with name }) }

def setCurrentPage (workspace : Workspace) (id : String) : Outcome :=
  match workspace.project with
  | none => .error .noProject
  | some project =>
    if (project.page? id).isNone then .error (.pageNotFound id)
    else .ok { workspace with pageId := some id, selectedId := none }

def addNode (workspace : Workspace) (node : Node) (parentId : Option String) : Outcome :=
  match workspace.page? with
  | none => .error .noCurrentPage
  | some page =>
    let parent := parentId.getD page.root.id
    if !page.root.contains parent then .error (.nodeNotFound parent)
    else if page.root.contains node.id then .error (.duplicateNodeId node.id)
    else
      let root := (page.root.insertChild parent node).getD page.root
      .ok { workspace.withRoot root with selectedId := some node.id }

/-- Applies an edit to the page on display, once the node is known to be there. -/
def editNode (workspace : Workspace) (id : String) (edit : Node → Option Node) : Outcome :=
  match workspace.page? with
  | none => .error .noCurrentPage
  | some page =>
    if !page.root.contains id then .error (.nodeNotFound id)
    else .ok (workspace.withRoot ((edit page.root).getD page.root))

/-- The selection goes only if it points into the subtree that goes. -/
def deleteNode (workspace : Workspace) (id : String) : Outcome :=
  match workspace.page? with
  | none => .error .noCurrentPage
  | some page =>
    if page.root.id = id then .error (.rootNode id)
    else
      match page.root.find? id with
      | none => .error (.nodeNotFound id)
      | some removed =>
        let remaining := workspace.withRoot ((page.root.delete id).getD page.root)
        .ok (if workspace.selectedId.any removed.contains then { remaining with selectedId := none }
        else remaining)

def setZoom (workspace : Workspace) (zoom : Float) : Outcome :=
  if zoom.isNaN then .error .invalidZoom else .ok { workspace with zoom := clampZoom zoom }

def apply (workspace : Workspace) (ids : IdSource) :
    Command → Except Rejection (Workspace × IdSource)
  | .createProject name => .ok (workspace.createProject ids name)
  | .addPage name => workspace.addPage ids name
  | .deletePage id => (workspace.deletePage id).map (·, ids)
  | .renamePage id name => (workspace.renamePage id name).map (·, ids)
  | .setCurrentPage id => (workspace.setCurrentPage id).map (·, ids)
  | .addNode node parentId => (workspace.addNode node parentId).map (·, ids)
  | .updateNode id patch => (workspace.editNode id fun root => root.update id patch).map (·, ids)
  | .updateNodeLayout id layout =>
    (workspace.editNode id fun root => root.updateLayout id layout).map (·, ids)
  | .updateNodeStyles id styles =>
    (workspace.editNode id fun root => root.updateStyles id styles).map (·, ids)
  | .deleteNode id => (workspace.deleteNode id).map (·, ids)
  | .selectNode id => .ok ({ workspace with selectedId := id }, ids)
  | .setTool tool => .ok ({ workspace with tool }, ids)
  | .setZoom zoom => (workspace.setZoom zoom).map (·, ids)

end Workspace
end PageDesigner
