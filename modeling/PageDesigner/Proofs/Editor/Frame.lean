import PageDesigner.Proofs.Editor.Selection
import PageDesigner.Proofs.Tree.FirstMatch

/-!
What a committed command leaves alone. A command on nodes touches one tree and the selection, a
command on pages touches the list of pages and what is shown of it, and each of the others its own
field.
-/

namespace PageDesigner

namespace Workspace

/-- Only the tree on display and the selection may have changed. -/
structure EditsShownTree (before after : Workspace) : Prop where
  pages : ∃ project front page back root, before.project = some project ∧
    before.page? = some page ∧ project.pages = front ++ page :: back ∧
    after.project = some { project with pages := front ++ { page with root } :: back }
  pageId : after.pageId = before.pageId
  tool : after.tool = before.tool
  zoom : after.zoom = before.zoom

def shownSkeleton (workspace : Workspace) : Option (List (String × Kind × Nat)) :=
  workspace.page?.map fun page => page.root.skeleton

/-- Only names, looks and contents of nodes on display may have changed. -/
structure UpdatesShownTree (before after : Workspace) : Prop
    extends EditsShownTree before after where
  selectedId : after.selectedId = before.selectedId
  skeleton : after.shownSkeleton = before.shownSkeleton

/-- One page is gone. If it was on display, the first of those left takes its place and nothing is
selected any more. -/
def RemovesPage (before after : Workspace) (id : String) : Prop :=
  ∃ project front page back, before.project = some project ∧
    project.pages = front ++ page :: back ∧ page.id = id ∧
    ((before.pageId = some id ∧ ∃ shown, (front ++ back).head? = some shown ∧
        after = { before.withPages project (front ++ back) with
          pageId := some shown.id, selectedId := none }) ∨
      (before.pageId ≠ some id ∧ after = before.withPages project (front ++ back)))

end Workspace

/-- How far a command may change a workspace. -/
def Command.Frame (before after : Workspace) : Command → Prop
  | createProject _ => after.tool = before.tool ∧ after.zoom = before.zoom
  | addPage _ => ∃ project page, before.project = some project ∧
      after = { before.withPages project (project.pages ++ [page]) with
        pageId := some page.id, selectedId := none }
  | deletePage id => before.RemovesPage after id
  | renamePage id name => ∃ project front page back, before.project = some project ∧
      project.pages = front ++ page :: back ∧ page.id = id ∧
      after = before.withPages project (front ++ { page with name } :: back)
  | setCurrentPage id => after = { before with pageId := some id, selectedId := none }
  | addNode _ _ => before.EditsShownTree after
  | updateNode _ _ => before.UpdatesShownTree after
  | updateNodeLayout _ _ => before.UpdatesShownTree after
  | updateNodeStyles _ _ => before.UpdatesShownTree after
  | deleteNode _ => before.EditsShownTree after
  | selectNode id => after = { before with selectedId := id }
  | setTool tool => after = { before with tool }
  | setZoom _ => after = { before with zoom := after.zoom }

namespace Workspace

variable {workspace next : Workspace} {project : Project} {front back : List Page} {page : Page}

theorem Displays.editsShownTree (shown : workspace.Displays project front page back) (root : Node)
    (selectedId : Option String) :
    workspace.EditsShownTree
      { workspace.withPages project (front ++ { page with root } :: back) with selectedId } where
  pages := ⟨project, front, page, back, root, shown.opened, shown.page?_eq, shown.split, rfl⟩
  pageId := rfl
  tool := rfl
  zoom := rfl

theorem Displays.updatesShownTree (shown : workspace.Displays project front page back)
    {change : NodeUpdate} {id : String} {root : Node} (done : change.run id page.root = some root) :
    workspace.UpdatesShownTree
      (workspace.withPages project (front ++ { page with root } :: back)) where
  toEditsShownTree := shown.editsShownTree root workspace.selectedId
  selectedId := rfl
  skeleton := by
    have shownNext : (workspace.withPages project (front ++ { page with root } :: back)).page? =
        some { page with root } := shown.replaceRoot rfl rfl
    rw [shownSkeleton, shownSkeleton, shownNext, shown.page?_eq, Option.map_some, Option.map_some,
      NodeUpdate.run_skeleton done]

theorem Displays.removesPage (shown : workspace.Displays project front page back)
    (rest : front ++ back ≠ []) :
    workspace.RemovesPage
      { workspace.withPages project (front ++ back) with
        pageId := (front ++ back).head?.map Page.id, selectedId := none } page.id := by
  obtain ⟨first, others, left⟩ := List.exists_cons_of_ne_nil rest
  refine ⟨project, front, page, back, shown.opened, shown.split, rfl, Or.inl ⟨shown.current, ?_⟩⟩
  refine ⟨first, ?_, ?_⟩
  · rw [left, List.head?_cons]
  · rw [left, List.head?_cons, Option.map_some]

theorem Commit.frame {ids source : IdSource} {command : Command}
    (committed : workspace.Commit ids command next source) : command.Frame workspace next := by
  cases committed with
  | createProject name => exact ⟨rfl, rfl⟩
  | addPage name opened => exact ⟨_, _, opened, rfl⟩
  | deleteShownPage shown rest => exact shown.removesPage rest
  | deleteOtherPage opened split hidden =>
    exact ⟨_, _, _, _, opened, split, rfl, Or.inr ⟨hidden, rfl⟩⟩
  | renamePage name opened split first => exact ⟨_, _, _, _, opened, split, rfl, rfl⟩
  | setCurrentPage opened member => rfl
  | addNode shown absent inserted => exact shown.editsShownTree _ _
  | @updateNode project front back page root id patch shown updated =>
    have done : (NodeUpdate.parts patch).run id page.root = some root := updated
    exact shown.updatesShownTree done
  | @updateNodeLayout project front back page root id patch shown updated =>
    have done : (NodeUpdate.layout patch).run id page.root = some root := updated
    exact shown.updatesShownTree done
  | @updateNodeStyles project front back page root id patch shown updated =>
    have done : (NodeUpdate.styles patch).run id page.root = some root := updated
    exact shown.updatesShownTree done
  | deleteNode shown notRoot found deleted => exact shown.editsShownTree _ _
  | selectNode id => rfl
  | setTool tool => rfl
  | setZoom number => rfl

end Workspace

namespace Session

variable {α : Type}

/-- In every state, whether or not a run can lead there. -/
theorem committed_command_keeps_frame (session : Session α) (command : Command)
    (committed : (session.dispatch command).2.1 = .committed) :
    command.Frame session.workspace (session.dispatch command).1.workspace :=
  (commit_of_committed committed).frame

/-- An element of the second page gets another layout while an element beside it is selected. -/
theorem layout_change_keeps_frame :
    let actions : List (Action Unit) := [.dispatch (.createProject "Site"),
      .dispatch (.addPage "About"), .dispatch (.addNode (.frame "box" "Box") none),
      .dispatch (.addNode (.text "note" "Note") (some "box")), .dispatch (.selectNode (some "0-5"))]
    let session := ((new "").run actions).1
    let command : Command := .updateNodeLayout "note" { width := some 40 }
    let result := session.dispatch command
    result.2.1 = .committed ∧ result.1.workspace ≠ session.workspace ∧
      command.Frame session.workspace result.1.workspace := by
  intro actions session command result
  have committed : result.2.1 = .committed := by decide +kernel
  have changed : result.1.workspace ≠ session.workspace := by decide +kernel
  exact ⟨committed, changed, committed_command_keeps_frame session command committed⟩

end Session

end PageDesigner
