import PageDesigner.Proofs.Editor.Selection
import PageDesigner.Proofs.Tree.Insertion

/-!
Adding a node and taking it back. The guard only asks that the node's own id is new to the page, so
ids may repeat below it and on the page. Still the added node is what is selected, and its deletion
takes out what was added and nothing else.
-/

namespace PageDesigner

namespace Workspace

/-- The workspace with a new tree on display, into which the node has come. -/
def adding (workspace : Workspace) (root node : Node) : Workspace :=
  { workspace.withRoot root with selectedId := some node.id }

variable {workspace next : Workspace} {page : Page} {root node : Node}

theorem Commit.addition {ids source : IdSource} {parentId : Option String}
    (committed : workspace.Commit ids (.addNode node parentId) next source) :
    ∃ page root, workspace.page? = some page ∧ page.root.contains node.id = false ∧
      page.root.insertChild (parentId.getD page.root.id) node = some root ∧
      next = workspace.adding root node ∧ source = ids := by
  cases committed with
  | @addNode project before after page node root parentId shown absent inserted =>
    refine ⟨page, root, shown.page?_eq, absent, inserted, ?_, rfl⟩
    rw [adding, shown.withRoot]

theorem page?_adding (shown : workspace.page? = some page) (root node : Node) :
    (workspace.adding root node).page? = some { page with root } := by
  obtain ⟨project, before, after, displays⟩ := displays_of_page? shown
  rw [adding, displays.withRoot]
  exact displays.replaceRoot rfl rfl

theorem selected?_adding (shown : workspace.page? = some page)
    (found : root.find? node.id = some node) :
    (workspace.adding root node).selected? = some node := by
  have selection : (workspace.adding root node).selectedId = some node.id := rfl
  simp only [selected?, page?_adding shown, selection, Option.bind_eq_bind, Option.bind_some, found]

/-- With the old tree put back, only the selection tells that there was another one. -/
theorem withRoot_adding (shown : workspace.page? = some page) (root node : Node) :
    (workspace.adding root node).withRoot page.root =
      { workspace with selectedId := some node.id } := by
  obtain ⟨project, before, after, displays⟩ := displays_of_page? shown
  have opened : workspace.project = some { project with pages := before ++ page :: after } := by
    rw [displays.opened, ← displays.split]
  have displaysNext : (workspace.adding root node).Displays
      { project with pages := before ++ { page with root } :: after } before { page with root }
      after := by
    rw [adding, displays.withRoot]
    exact ⟨rfl, displays.current, rfl, displays.first⟩
  rw [displaysNext.withRoot, adding, displays.withRoot, withPages, withPages, opened]

theorem deleteNode_adding (shown : workspace.page? = some page)
    (fresh : page.root.contains node.id = false) {parent : String}
    (inserted : page.root.insertChild parent node = some root) :
    (workspace.adding root node).deleteNode node.id = .ok { workspace with selectedId := none } := by
  have found : root.find? node.id = some node := Node.insertChild_find? fresh inserted
  have notRoot : root.id ≠ node.id := by
    intro same
    have kept : page.root.id = node.id := (Node.insertChild_sameRoot inserted).1.symm.trans same
    rw [← kept, Node.contains, Node.find?_self] at fresh
    exact Bool.false_ne_true fresh.symm
  have undone : (root.delete node.id).getD root = page.root :=
    TreeEdit.delete_undoes_insertChild fresh inserted
  have selected : (workspace.adding root node).selectedId.any node.contains = true := by
    show node.contains node.id = true
    rw [Node.contains, Node.find?_self, Option.isSome_some]
  simp only [deleteNode, page?_adding shown, if_neg notRoot, found, undone, if_pos selected,
    withRoot_adding shown]

end Workspace

namespace Session

variable {α : Type}

/-- In every state, whether or not ids repeat on the page and below the node. What is left of the
addition after the deletion is that nothing is selected. -/
theorem deletion_undoes_addition (session : Session α) (node : Node) (parentId : Option String)
    (committed : (session.dispatch (.addNode node parentId)).2.1 = .committed) :
    let added := (session.dispatch (.addNode node parentId)).1
    let undone := added.dispatch (.deleteNode node.id)
    added.workspace.selected? = some node ∧
    (∃ page next parent, session.workspace.page? = some page ∧
      added.workspace.page? = some next ∧
      page.root.find? (parentId.getD page.root.id) = some parent ∧
      (parentId = none → parent = page.root) ∧
      next.root.find? (parentId.getD page.root.id) =
        some ⟨parent.element, parent.children ++ [node]⟩) ∧
    undone.2.1 = .committed ∧
    undone.1.workspace.project = session.workspace.project ∧
    undone.1 = { session with workspace := { session.workspace with selectedId := none } } := by
  intro added undone
  obtain ⟨workspace, ids, done⟩ := apply_of_committed committed
  have addition : added = { session with workspace, ids } := (dispatch_of_apply done).2
  obtain ⟨page, root, shown, fresh, inserted, rfl, rfl⟩ :=
    (Workspace.commit_of_apply done).addition
  obtain ⟨parent, here, there⟩ := Node.insertChild_parent inserted
  have removal : added.workspace.apply added.ids (.deleteNode node.id) =
      .ok ({ session.workspace with selectedId := none }, session.ids) := by
    rw [addition, Workspace.apply, Workspace.deleteNode_adding shown fresh inserted]
    rfl
  obtain ⟨reply, restored⟩ := dispatch_of_apply removal
  have whole : undone.1 =
      { session with workspace := { session.workspace with selectedId := none } } := by
    rw [restored, addition]
  refine ⟨?_, ⟨page, { page with root }, parent, shown, ?_, here, ?_, there⟩, reply, ?_, whole⟩
  · rw [addition]
    exact Workspace.selected?_adding shown (Node.insertChild_find? fresh inserted)
  · rw [addition]
    exact Workspace.page?_adding shown root node
  · rintro rfl
    rw [Option.getD_none, Node.find?_self] at here
    exact (Option.some.inj here).symm
  · rw [whole]

/-- The node holds a second one of its own id and one of an id that is on the page already, and its
parent is the outer one of two with one id. -/
theorem twin_of_itself_added_and_deleted :
    let pair : Node := (Node.frame "twin" "Outer").withChildren [.text "twin" "Inner"]
    let node : Node := (Node.frame "card" "Card").withChildren
      [.text "card" "Again", .image "twin" "Third"]
    let actions : List (Action Unit) := [.dispatch (.createProject "Site"),
      .dispatch (.addNode pair none), .dispatch (.setZoom 2)]
    let session := ((new "").run actions).1
    let added := (session.dispatch (.addNode node (some "twin"))).1
    let undone := added.dispatch (.deleteNode "card")
    (session.dispatch (.addNode node (some "twin"))).2.1 = .committed ∧
      added.workspace.selected? = some node ∧ undone.2.1 = .committed ∧
      undone.1.workspace.project = session.workspace.project ∧
      undone.1.workspace.selectedId = none := by
  intro pair node actions session added undone
  have committed : (session.dispatch (.addNode node (some "twin"))).2.1 = .committed := by
    decide +kernel
  obtain ⟨selected, -, removed, restored, whole⟩ :=
    deletion_undoes_addition session node (some "twin") committed
  refine ⟨committed, selected, removed, restored, ?_⟩
  exact congrArg (fun session => session.workspace.selectedId) whole

end Session

end PageDesigner
