import PageDesigner.Document.Project
import PageDesigner.Tree.Edit

/-!
What an editing session shows: the open project, the page on display, the selection, the tool and
the zoom.
-/

namespace PageDesigner

inductive Tool where
  | select
  | frame
  | text
  deriving DecidableEq, Repr

structure Workspace where
  project : Option Project := none
  pageId : Option String := none
  selectedId : Option String := none
  tool : Tool := .select
  zoom : Float := 1
  deriving DecidableEq, Repr

namespace Workspace

def minZoom : Float := 0.25

def maxZoom : Float := 2

def clampZoom (zoom : Float) : Float :=
  if zoom < minZoom then minZoom else if maxZoom < zoom then maxZoom else zoom

/-- The page on display, if its id belongs to a page of the open project. -/
def page? (workspace : Workspace) : Option Page := do
  (← workspace.project).page? (← workspace.pageId)

/-- The selected node, if the page on display has a node with its id. -/
def selected? (workspace : Workspace) : Option Node := do
  let page ← workspace.page?
  page.root.find? (← workspace.selectedId)

/-- Replaces the tree of the page on display. -/
def withRoot (workspace : Workspace) (root : Node) : Workspace :=
  match workspace.project, workspace.pageId with
  | some project, some id =>
    { workspace with project := some (project.modifyPage id fun page => { page with root }) }
  | _, _ => workspace

end Workspace
end PageDesigner
