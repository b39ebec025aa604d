import PageDesigner.Editor.Session

/-!
A command carried out in place comes to the outcome that `Workspace.apply` gives at once: every way
to a rejection lies before the first write, so a rejected command leaves the desk as it was.
-/

namespace PageDesigner

namespace Edit

variable {α β : Type} (desk : Desk)

@[simp] theorem on_pure (value : α) : (pure value : Edit α).on desk = (.ok value, desk) := rfl

@[simp] theorem on_throw (reason : Rejection) :
    (throw reason : Edit α).on desk = (.error reason, desk) := rfl

@[simp] theorem on_bind (first : Edit α) (next : α → Edit β) :
    (first >>= next).on desk =
      match first.on desk with
      | (.ok value, left) => (next value).on left
      | (.error reason, left) => (.error reason, left) := by
  unfold on ExceptT.run StateT.run
  simp only [bind, ExceptT.bind, ExceptT.mk, StateT.bind, ExceptT.bindCont]
  cases first desk with
  | mk answer left => cases answer <;> rfl

@[simp] theorem on_workspace : workspace.on desk = (.ok desk.workspace, desk) := rfl

@[simp] theorem on_write (change : Workspace → Workspace) :
    (write change).on desk = (.ok (), { desk with workspace := change desk.workspace }) := rfl

@[simp] theorem on_require_none (reason : Rejection) :
    (require reason (none : Option α)).on desk = (.error reason, desk) := rfl

@[simp] theorem on_require_some (reason : Rejection) (value : α) :
    (require reason (some value)).on desk = (.ok value, desk) := rfl

@[simp] theorem on_refuseIf (condition : Bool) (reason : Rejection) :
    (refuseIf condition reason).on desk =
      (if condition then .error reason else .ok (), desk) := by
  cases condition <;> rfl

@[simp] theorem on_newPage (name : String) :
    (newPage name).on desk =
      (.ok (mintPage desk.ids name).1, { desk with ids := (mintPage desk.ids name).2 }) := rfl

@[simp] theorem on_openProject :
    openProject.on desk = (require .noProject desk.workspace.project).on desk := rfl

@[simp] theorem on_shownPage :
    shownPage.on desk = (require .noCurrentPage desk.workspace.page?).on desk := rfl

@[simp] theorem on_writeProject (change : Project → Project) :
    (writeProject change).on desk =
      (.ok (), { desk with workspace :=
        { desk.workspace with project := desk.workspace.project.map change } }) := rfl

@[simp] theorem on_writePageId (pageId : Option String) :
    (writePageId pageId).on desk =
      (.ok (), { desk with workspace := { desk.workspace with pageId } }) := rfl

@[simp] theorem on_writeSelection (selectedId : Option String) :
    (writeSelection selectedId).on desk =
      (.ok (), { desk with workspace := { desk.workspace with selectedId } }) := rfl

@[simp] theorem on_writeRoot (root : Node) :
    (writeRoot root).on desk =
      (.ok (), { desk with workspace := desk.workspace.withRoot root }) := rfl

@[simp] theorem on_ite (condition : Prop) [Decidable condition] (first second : Edit α) :
    (if condition then first else second).on desk =
      if condition then first.on desk else second.on desk := by
  split <;> rfl

end Edit

namespace Desk

/-- An outcome with the desk that it leaves, which is the old one in case of a rejection. -/
def settle (desk : Desk) : Except Rejection (Workspace × IdSource) → Except Rejection Unit × Desk
  | .ok (workspace, ids) => (.ok (), ⟨workspace, ids⟩)
  | .error reason => (.error reason, desk)

variable (desk : Desk)

@[simp] theorem settle_ok (workspace : Workspace) (ids : IdSource) :
    desk.settle (.ok (workspace, ids)) = (.ok (), ⟨workspace, ids⟩) := rfl

@[simp] theorem settle_error (reason : Rejection) :
    desk.settle (.error reason) = (.error reason, desk) := rfl

/-- Of a command that mints no ids. -/
def settleOutcome (outcome : Workspace.Outcome) : Except Rejection Unit × Desk :=
  desk.settle (outcome.map (·, desk.ids))

@[simp] theorem settleOutcome_ok (workspace : Workspace) :
    desk.settleOutcome (.ok workspace) = (.ok (), { desk with workspace }) := rfl

@[simp] theorem settleOutcome_error (reason : Rejection) :
    desk.settleOutcome (.error reason) = (.error reason, desk) := rfl

end Desk

namespace Edit

variable (desk : Desk)

theorem on_createProject (name : String) :
    (createProject name).on desk = desk.settle (.ok (desk.workspace.createProject desk.ids name)) :=
  rfl

theorem on_addPage (name : String) :
    (addPage name).on desk = desk.settle (desk.workspace.addPage desk.ids name) := by
  cases opened : desk.workspace.project <;> simp [addPage, Workspace.addPage, opened]

/-- The page is found by its place in the list and then removed at that place. -/
theorem on_deletePage (id : String) :
    (deletePage id).on desk = desk.settleOutcome (desk.workspace.deletePage id) := by
  cases opened : desk.workspace.project with
  | none => simp [deletePage, Workspace.deletePage, opened]
  | some project =>
    have absent : project.page? id = none ↔
        project.pages.findIdx? (fun page => page.id = id) = none := by
      simp [Project.page?]
    have erased := @List.eraseP_eq_eraseIdx Page project.pages fun page => page.id = id
    cases placed : project.pages.findIdx? fun page => page.id = id with
    | none => simp [deletePage, Workspace.deletePage, opened, placed, absent]
    | some place =>
      rw [placed] at absent erased
      by_cases last : project.pages.length ≤ 1
      · simp [deletePage, Workspace.deletePage, opened, placed, absent, last]
      · by_cases shown : desk.workspace.pageId = some id <;>
          simp [deletePage, Workspace.deletePage, opened, placed, absent, last, shown, erased]

theorem on_renamePage (id name : String) :
    (renamePage id name).on desk = desk.settleOutcome (desk.workspace.renamePage id name) := by
  cases opened : desk.workspace.project with
  | none => simp [renamePage, Workspace.renamePage, opened]
  | some project =>
    cases found : project.page? id <;> simp [renamePage, Workspace.renamePage, opened, found]

theorem on_setCurrentPage (id : String) :
    (setCurrentPage id).on desk = desk.settleOutcome (desk.workspace.setCurrentPage id) := by
  cases opened : desk.workspace.project with
  | none => simp [setCurrentPage, Workspace.setCurrentPage, opened]
  | some project =>
    cases found : project.page? id <;>
      simp [setCurrentPage, Workspace.setCurrentPage, opened, found]

theorem on_addNode (node : Node) (parentId : Option String) :
    (addNode node parentId).on desk =
      desk.settleOutcome (desk.workspace.addNode node parentId) := by
  cases shown : desk.workspace.page? with
  | none => simp [addNode, Workspace.addNode, shown]
  | some page =>
    cases present : page.root.contains (parentId.getD page.root.id) <;>
      cases taken : page.root.contains node.id <;>
        simp [addNode, Workspace.addNode, shown, present, taken]

theorem on_editNode (id : String) (edit : Node → Option Node) :
    (editNode id edit).on desk = desk.settleOutcome (desk.workspace.editNode id edit) := by
  cases shown : desk.workspace.page? with
  | none => simp [editNode, Workspace.editNode, shown]
  | some page =>
    cases present : page.root.contains id <;> simp [editNode, Workspace.editNode, shown, present]

/-- The second look at the page finds it again, since nothing is written in between. -/
theorem on_deleteNode (id : String) :
    (deleteNode id).on desk = desk.settleOutcome (desk.workspace.deleteNode id) := by
  cases shown : desk.workspace.page? with
  | none => simp [deleteNode, Workspace.deleteNode, shown]
  | some page =>
    by_cases atRoot : page.root.id = id
    · simp [deleteNode, Workspace.deleteNode, shown, atRoot]
    · cases found : page.root.find? id with
      | none => simp [deleteNode, Workspace.deleteNode, shown, atRoot, found]
      | some removed =>
        by_cases selectionGoes : desk.workspace.selectedId.any removed.contains <;>
          simp [deleteNode, Workspace.deleteNode, shown, atRoot, found, selectionGoes]

theorem on_setZoom (zoom : Float) :
    (setZoom zoom).on desk = desk.settleOutcome (desk.workspace.setZoom zoom) := by
  unfold setZoom Workspace.setZoom
  cases zoom.isNaN with
  | true => rfl
  | false => rfl

end Edit

/-- Carrying out a command field by field comes to its outcome at once. -/
theorem Command.execute_eq (command : Command) (desk : Desk) :
    command.execute.on desk = desk.settle (desk.workspace.apply desk.ids command) := by
  cases command with
  | createProject name => exact Edit.on_createProject desk name
  | addPage name => exact Edit.on_addPage desk name
  | deletePage id => exact Edit.on_deletePage desk id
  | renamePage id name => exact Edit.on_renamePage desk id name
  | setCurrentPage id => exact Edit.on_setCurrentPage desk id
  | addNode node parentId => exact Edit.on_addNode desk node parentId
  | updateNode id patch => exact Edit.on_editNode desk id fun root => root.update id patch
  | updateNodeLayout id layout =>
    exact Edit.on_editNode desk id fun root => root.updateLayout id layout
  | updateNodeStyles id styles =>
    exact Edit.on_editNode desk id fun root => root.updateStyles id styles
  | deleteNode id => exact Edit.on_deleteNode desk id
  | selectNode id => rfl
  | setTool tool => rfl
  | setZoom zoom => exact Edit.on_setZoom desk zoom

theorem Session.dispatch_eq {α : Type} (session : Session α) (command : Command) :
    session.dispatch command =
      match session.workspace.apply session.ids command with
      | .ok (workspace, ids) =>
        ({ session with workspace, ids }, .committed,
          session.listeners.toList.map fun listener => (listener, workspace))
      | .error reason => (session, .rejected reason, []) := by
  unfold dispatch
  rw [command.execute_eq]
  cases session.workspace.apply session.ids command with
  | ok outcome => rfl
  | error reason => rfl

end PageDesigner
