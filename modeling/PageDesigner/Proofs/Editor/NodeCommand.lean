import PageDesigner.Proofs.Editor.History
import PageDesigner.Proofs.Tree.Independence

/-!
The commands that concern the nodes of the page on display. Each is one edit of the page's tree
behind a guard, and both go by nothing but the tree.
-/

namespace PageDesigner

inductive NodeCommand where
  | insert (node : Node) (parentId : Option String)
  | update (id : String) (change : NodeUpdate)
  | delete (id : String)
  deriving DecidableEq, Repr

namespace NodeCommand

def command : NodeCommand → Command
  | insert node parentId => .addNode node parentId
  | update id (.parts patch) => .updateNode id patch
  | update id (.layout patch) => .updateNodeLayout id patch
  | update id (.styles patch) => .updateNodeStyles id patch
  | delete id => .deleteNode id

/-- The edit that the command makes of a tree. Without a parent a node goes under the root. -/
def edit (root : Node) : NodeCommand → TreeEdit
  | insert node parentId => .insertChild (parentId.getD root.id) node
  | update id change => .update id change
  | delete id => .delete id

/-- Why the command is refused on a tree, if it is. -/
def refusal (root : Node) : NodeCommand → Option Rejection
  | insert node parentId =>
    let parent := parentId.getD root.id
    if !root.contains parent then some (.nodeNotFound parent)
    else if root.contains node.id then some (.duplicateNodeId node.id)
    else none
  | update id _ => if !root.contains id then some (.nodeNotFound id) else none
  | delete id =>
    if root.id = id then some (.rootNode id)
    else if !root.contains id then some (.nodeNotFound id)
    else none

/-- What is selected once the command is carried out. -/
def selection (root : Node) (selectedId : Option String) : NodeCommand → Option String
  | insert node _ => some node.id
  | update _ _ => selectedId
  | delete id =>
    if (root.find? id).any fun removed => selectedId.any removed.contains then none else selectedId

/-- The answer to the command on a tree. -/
def reply (root : Node) (command : NodeCommand) : Reply :=
  match command.refusal root with
  | some reason => .rejected reason
  | none => .committed

/-- The tree after the command, whether or not it is refused. -/
def result (root : Node) (command : NodeCommand) : Node :=
  match command.refusal root with
  | some _ => root
  | none => (command.edit root).on root

theorem refusal_ne_noCurrentPage (command : NodeCommand) (root : Node) :
    command.refusal root ≠ some .noCurrentPage := by
  cases command with
  | insert node parentId =>
    rw [refusal]
    split
    · simp
    · split
      · simp
      · simp
  | update id change =>
    rw [refusal]
    split
    · simp
    · simp
  | delete id =>
    rw [refusal]
    split
    · simp
    · split
      · simp
      · simp

variable {workspace : Workspace} {page : Page}

theorem apply_update (workspace : Workspace) (ids : IdSource) (id : String) (change : NodeUpdate) :
    workspace.apply ids (update id change).command =
      (workspace.editNode id (change.run id)).map (·, ids) := by
  cases change with
  | parts patch => rfl
  | layout patch => rfl
  | styles patch => rfl

theorem apply_of_hidden (hidden : workspace.page? = none) (ids : IdSource)
    (command : NodeCommand) : workspace.apply ids command.command = .error .noCurrentPage := by
  cases command with
  | insert node parentId =>
    simp only [NodeCommand.command, Workspace.apply, Workspace.addNode, hidden]
    rfl
  | update id change =>
    rw [apply_update]
    simp only [Workspace.editNode, hidden]
    rfl
  | delete id =>
    simp only [NodeCommand.command, Workspace.apply, Workspace.deleteNode, hidden]
    rfl

theorem withRoot_keeps_selection (workspace : Workspace) (root : Node) :
    { workspace.withRoot root with selectedId := workspace.selectedId } =
      workspace.withRoot root := by
  unfold Workspace.withRoot
  split <;> rfl

/-- With a page on display, the command is refused or makes its edit of the page's tree. -/
theorem apply_of_shown (shown : workspace.page? = some page) (ids : IdSource)
    (command : NodeCommand) :
    workspace.apply ids command.command =
      match command.refusal page.root with
      | some reason => .error reason
      | none =>
        .ok ({ workspace.withRoot ((command.edit page.root).on page.root) with
          selectedId := command.selection page.root workspace.selectedId }, ids) := by
  cases command with
  | insert node parentId =>
    simp only [NodeCommand.command, Workspace.apply, Workspace.addNode, shown, refusal]
    split
    · rfl
    · split
      · rfl
      · rfl
  | update id change =>
    rw [apply_update]
    simp only [Workspace.editNode, shown, refusal]
    split
    · rfl
    · simp only [selection, withRoot_keeps_selection]
      rfl
  | delete id =>
    simp only [NodeCommand.command, Workspace.apply, Workspace.deleteNode, shown, refusal]
    split
    · rfl
    · cases found : page.root.find? id with
      | none => simp [Node.contains, found, Except.map]
      | some removed =>
        have present : page.root.contains id = true := by
          rw [Node.contains, found, Option.isSome_some]
        simp only [present, selection, found, Option.any_some]
        split
        · rfl
        · rw [withRoot_keeps_selection]
          rfl

end NodeCommand

/-- A committed update replaces the tree on display by the updated one. -/
theorem Workspace.Commit.update {workspace next : Workspace} {ids source : IdSource} {id : String}
    {change : NodeUpdate}
    (committed : workspace.Commit ids (NodeCommand.update id change).command next source) :
    ∃ project front page back root, workspace.Displays project front page back ∧
      change.run id page.root = some root ∧
      next = workspace.withPages project (front ++ { page with root } :: back) := by
  cases change with
  | parts patch =>
    cases committed with
    | updateNode shown updated => exact ⟨_, _, _, _, _, shown, updated, rfl⟩
  | layout patch =>
    cases committed with
    | updateNodeLayout shown updated => exact ⟨_, _, _, _, _, shown, updated, rfl⟩
  | styles patch =>
    cases committed with
    | updateNodeStyles shown updated => exact ⟨_, _, _, _, _, shown, updated, rfl⟩

theorem Workspace.withRoot_self {workspace : Workspace} {page : Page}
    (shown : workspace.page? = some page) : workspace.withRoot page.root = workspace := by
  obtain ⟨project, before, after, displays⟩ := displays_of_page? shown
  have opened := displays.opened
  rw [displays.withRoot, withPages, ← displays.split, ← opened]

namespace Session

variable {α : Type} {session : Session α} {page : Page}

theorem reply_of_hidden (hidden : session.workspace.page? = none) (command : NodeCommand) :
    (session.dispatch command.command).2.1 = .rejected .noCurrentPage := by
  rw [dispatch_eq, NodeCommand.apply_of_hidden hidden]

theorem reply_of_shown (shown : session.workspace.page? = some page) (command : NodeCommand) :
    (session.dispatch command.command).2.1 = command.reply page.root := by
  rw [dispatch_eq, NodeCommand.apply_of_shown shown, NodeCommand.reply]
  cases command.refusal page.root <;> rfl

/-- Apart from the selection, the command replaces the tree on display and does nothing else. -/
theorem workspace_of_shown (shown : session.workspace.page? = some page) (command : NodeCommand) :
    ∃ selectedId, (session.dispatch command.command).1.workspace =
      { session.workspace.withRoot (command.result page.root) with selectedId } := by
  rw [dispatch_eq, NodeCommand.apply_of_shown shown, NodeCommand.result]
  cases command.refusal page.root with
  | none => exact ⟨_, rfl⟩
  | some reason =>
    refine ⟨session.workspace.selectedId, ?_⟩
    rw [NodeCommand.withRoot_keeps_selection, Workspace.withRoot_self shown]

end Session

end PageDesigner
