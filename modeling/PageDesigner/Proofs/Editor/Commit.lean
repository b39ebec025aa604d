import PageDesigner.Editor.Transition
import PageDesigner.Proofs.Tree.Edit

/-!
Everything that a command can do when it is committed, one case for each way, with the conditions
under which it is taken. What holds of committed commands is proved by cases on `Workspace.Commit`.
-/

namespace PageDesigner

namespace Project

theorem exists_page?_of_not_isNone {project : Project} {id : String}
    (present : ¬(project.page? id).isNone = true) : ∃ page, project.page? id = some page := by
  cases found : project.page? id with
  | none => simp [found] at present
  | some page => exact ⟨page, rfl⟩

theorem page?_split {project : Project} {id : String} {page : Page}
    (found : project.page? id = some page) :
    page.id = id ∧ ∃ before after, project.pages = before ++ page :: after ∧
      ∀ other ∈ before, other.id ≠ page.id := by
  obtain ⟨same, before, after, split, first⟩ := List.find?_eq_some_iff_append.mp found
  have same : page.id = id := by simpa using same
  refine ⟨same, before, after, split, ?_⟩
  intro other member
  simpa [same] using first other member

theorem modifyFirst_split {before : List Page} {page : Page}
    (first : ∀ other ∈ before, other.id ≠ page.id) (change : Page → Page) (after : List Page) :
    modifyFirst page.id change (before ++ page :: after) = before ++ change page :: after := by
  induction before with
  | nil => simp [modifyFirst]
  | cons other before ih =>
    have different := first other List.mem_cons_self
    have tail := ih fun member inside => first member (List.mem_cons_of_mem other inside)
    simp [modifyFirst, different, tail]

end Project

namespace Workspace

/-- The page on display, between the pages before it, none of which has its id, and those after. -/
structure Displays (workspace : Workspace) (project : Project) (before : List Page) (page : Page)
    (after : List Page) : Prop where
  opened : workspace.project = some project
  current : workspace.pageId = some page.id
  split : project.pages = before ++ page :: after
  first : ∀ other ∈ before, other.id ≠ page.id

theorem displays_of_page? {workspace : Workspace} {page : Page}
    (shown : workspace.page? = some page) :
    ∃ project before after, workspace.Displays project before page after := by
  obtain ⟨project, opened, shown⟩ := Option.bind_eq_some_iff.mp shown
  obtain ⟨id, current, found⟩ := Option.bind_eq_some_iff.mp shown
  obtain ⟨same, before, after, split, first⟩ := Project.page?_split found
  exact ⟨project, before, after, opened, by rw [current, same], split, first⟩

def withPages (workspace : Workspace) (project : Project) (pages : List Page) : Workspace :=
  { workspace with project := some { project with pages } }

variable {workspace : Workspace} {project : Project} {before after : List Page} {page : Page}

theorem Displays.page?_eq (shown : workspace.Displays project before page after) :
    workspace.page? = some page := by
  have notBefore : before.find? (fun other => other.id = page.id) = none := by
    simpa using shown.first
  simp [page?, shown.opened, shown.current, Project.page?, shown.split, List.find?_append,
    notBefore]

theorem Displays.withRoot (shown : workspace.Displays project before page after) (root : Node) :
    workspace.withRoot root =
      workspace.withPages project (before ++ { page with root } :: after) := by
  simp only [Workspace.withRoot, shown.opened, shown.current, Project.modifyPage, shown.split,
    Project.modifyFirst_split shown.first, withPages]

/-- The outcomes of committed commands. -/
inductive Commit (workspace : Workspace) (ids : IdSource) : Command → Workspace → IdSource → Prop
  | createProject (name : String) :
    Commit workspace ids (.createProject name) (workspace.createProject ids name).1
      (workspace.createProject ids name).2
  | addPage {project : Project} (name : String) (opened : workspace.project = some project) :
    Commit workspace ids (.addPage name)
      { workspace.withPages project (project.pages ++ [(mintPage ids name).1]) with
        pageId := some (mintPage ids name).1.id, selectedId := none }
      (mintPage ids name).2
  | deleteShownPage {project : Project} {before after : List Page} {page : Page}
    (shown : workspace.Displays project before page after) (rest : before ++ after ≠ []) :
    Commit workspace ids (.deletePage page.id)
      { workspace.withPages project (before ++ after) with
        pageId := (before ++ after).head?.map Page.id, selectedId := none } ids
  | deleteOtherPage {project : Project} {before after : List Page} {page : Page}
    (opened : workspace.project = some project) (split : project.pages = before ++ page :: after)
    (hidden : workspace.pageId ≠ some page.id) :
    Commit workspace ids (.deletePage page.id) (workspace.withPages project (before ++ after)) ids
  | renamePage {project : Project} {before after : List Page} {page : Page} (name : String)
    (opened : workspace.project = some project) (split : project.pages = before ++ page :: after)
    (first : ∀ other ∈ before, other.id ≠ page.id) :
    Commit workspace ids (.renamePage page.id name)
      (workspace.withPages project (before ++ { page with name } :: after)) ids
  | setCurrentPage {project : Project} {page : Page} (opened : workspace.project = some project)
    (member : page ∈ project.pages) :
    Commit workspace ids (.setCurrentPage page.id)
      { workspace with pageId := some page.id, selectedId := none } ids
  | addNode {project : Project} {before after : List Page} {page : Page} {node root : Node}
    {parentId : Option String} (shown : workspace.Displays project before page after)
    (absent : page.root.contains node.id = false)
    (inserted : page.root.insertChild (parentId.getD page.root.id) node = some root) :
    Commit workspace ids (.addNode node parentId)
      { workspace.withPages project (before ++ { page with root } :: after) with
        selectedId := some node.id } ids
  | updateNode {project : Project} {before after : List Page} {page : Page} {root : Node}
    {id : String} {patch : ElementPatch} (shown : workspace.Displays project before page after)
    (updated : page.root.update id patch = some root) :
    Commit workspace ids (.updateNode id patch)
      (workspace.withPages project (before ++ { page with root } :: after)) ids
  | updateNodeLayout {project : Project} {before after : List Page} {page : Page} {root : Node}
    {id : String} {patch : LayoutPatch} (shown : workspace.Displays project before page after)
    (updated : page.root.updateLayout id patch = some root) :
    Commit workspace ids (.updateNodeLayout id patch)
      (workspace.withPages project (before ++ { page with root } :: after)) ids
  | updateNodeStyles {project : Project} {before after : List Page} {page : Page} {root : Node}
    {id : String} {patch : Styles} (shown : workspace.Displays project before page after)
    (updated : page.root.updateStyles id patch = some root) :
    Commit workspace ids (.updateNodeStyles id patch)
      (workspace.withPages project (before ++ { page with root } :: after)) ids
  | deleteNode {project : Project} {before after : List Page} {page : Page} {removed root : Node}
    {id : String} (shown : workspace.Displays project before page after)
    (notRoot : page.root.id ≠ id) (found : page.root.find? id = some removed)
    (deleted : page.root.delete id = some root) :
    Commit workspace ids (.deleteNode id)
      { workspace.withPages project (before ++ { page with root } :: after) with
        selectedId :=
          if workspace.selectedId.any removed.contains then none else workspace.selectedId } ids
  | selectNode (id : Option String) :
    Commit workspace ids (.selectNode id) { workspace with selectedId := id } ids
  | setTool (tool : Tool) : Commit workspace ids (.setTool tool) { workspace with tool } ids
  | setZoom {zoom : Float} (number : zoom.isNaN = false) :
    Commit workspace ids (.setZoom zoom) { workspace with zoom := clampZoom zoom } ids

section Inversion

variable {ids : IdSource} {next : Workspace}

theorem commit_of_addPage {name : String} {minted : IdSource}
    (done : workspace.addPage ids name = .ok (next, minted)) :
    Commit workspace ids (.addPage name) next minted := by
  unfold addPage at done
  split at done
  · cases done
  · rename_i opened
    cases done
    exact .addPage name opened

theorem commit_of_deletePage {id : String} (done : workspace.deletePage id = .ok next) :
    Commit workspace ids (.deletePage id) next ids := by
  unfold deletePage at done
  split at done
  · cases done
  · rename_i project opened
    split at done
    · cases done
    · rename_i present
      split at done
      · cases done
      · rename_i several
        obtain ⟨page, found⟩ := Project.exists_page?_of_not_isNone present
        obtain ⟨rfl, before, after, split, first⟩ := Project.page?_split found
        have erased : project.pages.eraseP (fun other => other.id = page.id) = before ++ after := by
          rw [split, List.eraseP_append_right _ (by simpa using first)]
          simp
        have rest : before ++ after ≠ [] := by
          intro empty
          simp only [split, List.length_append, List.length_cons] at several
          have := congrArg List.length empty
          simp only [List.length_append, List.length_nil] at this
          omega
        simp only [erased] at done
        split at done
        · rename_i current
          cases done
          exact .deleteShownPage ⟨opened, current, split, first⟩ rest
        · rename_i hidden
          cases done
          exact .deleteOtherPage opened split hidden

theorem commit_of_renamePage {id name : String} (done : workspace.renamePage id name = .ok next) :
    Commit workspace ids (.renamePage id name) next ids := by
  unfold renamePage at done
  split at done
  · cases done
  · rename_i project opened
    split at done
    · cases done
    · rename_i present
      obtain ⟨page, found⟩ := Project.exists_page?_of_not_isNone present
      obtain ⟨rfl, before, after, split, first⟩ := Project.page?_split found
      cases done
      simp only [Project.modifyPage, split, Project.modifyFirst_split first]
      exact .renamePage name opened split first

theorem commit_of_setCurrentPage {id : String} (done : workspace.setCurrentPage id = .ok next) :
    Commit workspace ids (.setCurrentPage id) next ids := by
  unfold setCurrentPage at done
  split at done
  · cases done
  · rename_i project opened
    split at done
    · cases done
    · rename_i present
      obtain ⟨page, found⟩ := Project.exists_page?_of_not_isNone present
      obtain ⟨rfl, before, after, split, -⟩ := Project.page?_split found
      cases done
      exact .setCurrentPage opened (by simp [split])

theorem commit_of_addNode {node : Node} {parentId : Option String}
    (done : workspace.addNode node parentId = .ok next) :
    Commit workspace ids (.addNode node parentId) next ids := by
  unfold addNode at done
  split at done
  · cases done
  · rename_i page shown
    obtain ⟨project, before, after, shown⟩ := displays_of_page? shown
    simp only [shown.withRoot] at done
    split at done
    · cases done
    · rename_i present
      split at done
      · cases done
      · rename_i absent
        obtain ⟨root, inserted⟩ := Node.exists_insertChild (by simpa using present) node
        cases done
        simp only [inserted, Option.getD_some]
        exact .addNode shown (by simpa using absent) inserted

/-- An edit that finds every node of the tree is carried out on the page on display. -/
theorem displays_of_editNode {id : String} {edit : Node → Option Node}
    (done : workspace.editNode id edit = .ok next)
    (finds : ∀ root : Node, root.contains id = true → ∃ edited, edit root = some edited) :
    ∃ project before page after root, workspace.Displays project before page after ∧
      edit page.root = some root ∧
      next = workspace.withPages project (before ++ { page with root } :: after) := by
  unfold editNode at done
  split at done
  · cases done
  · rename_i page shown
    obtain ⟨project, before, after, shown⟩ := displays_of_page? shown
    simp only [shown.withRoot] at done
    split at done
    · cases done
    · rename_i present
      obtain ⟨root, edited⟩ := finds page.root (by simpa using present)
      cases done
      exact ⟨project, before, page, after, root, shown, edited, by simp [edited]⟩

theorem commit_of_deleteNode {id : String} (done : workspace.deleteNode id = .ok next) :
    Commit workspace ids (.deleteNode id) next ids := by
  unfold deleteNode at done
  split at done
  · cases done
  · rename_i page shown
    obtain ⟨project, before, after, shown⟩ := displays_of_page? shown
    simp only [shown.withRoot] at done
    split at done
    · cases done
    · rename_i notRoot
      split at done
      · cases done
      · rename_i removed found
        obtain ⟨root, deleted⟩ := Node.exists_delete found notRoot
        simp only [deleted, Option.getD_some] at done
        have committed : Commit workspace ids (.deleteNode id) _ ids :=
          .deleteNode shown notRoot found deleted
        split at done
        · rename_i selected
          cases done
          rw [if_pos selected] at committed
          exact committed
        · rename_i kept
          cases done
          rw [if_neg kept] at committed
          exact committed

end Inversion

theorem outcome_of_map {outcome : Outcome} {ids minted : IdSource} {next : Workspace}
    (done : outcome.map (·, ids) = .ok (next, minted)) : outcome = .ok next ∧ minted = ids := by
  cases outcome with
  | error reason => cases done
  | ok done' =>
    cases done
    exact ⟨rfl, rfl⟩

theorem commit_of_apply {ids minted : IdSource} {command : Command} {next : Workspace}
    (done : workspace.apply ids command = .ok (next, minted)) :
    Commit workspace ids command next minted := by
  cases command with
  | createProject name =>
    cases done
    exact .createProject name
  | addPage name => exact commit_of_addPage done
  | deletePage id =>
    obtain ⟨passed, rfl⟩ := outcome_of_map done
    exact commit_of_deletePage passed
  | renamePage id name =>
    obtain ⟨passed, rfl⟩ := outcome_of_map done
    exact commit_of_renamePage passed
  | setCurrentPage id =>
    obtain ⟨passed, rfl⟩ := outcome_of_map done
    exact commit_of_setCurrentPage passed
  | addNode node parentId =>
    obtain ⟨passed, rfl⟩ := outcome_of_map done
    exact commit_of_addNode passed
  | updateNode id patch =>
    obtain ⟨passed, rfl⟩ := outcome_of_map done
    obtain ⟨project, before, page, after, root, shown, updated, rfl⟩ :=
      displays_of_editNode passed fun root present => Node.exists_update present patch
    exact .updateNode shown updated
  | updateNodeLayout id layout =>
    obtain ⟨passed, rfl⟩ := outcome_of_map done
    obtain ⟨project, before, page, after, root, shown, updated, rfl⟩ :=
      displays_of_editNode passed fun root present => Node.exists_updateLayout present layout
    exact .updateNodeLayout shown updated
  | updateNodeStyles id styles =>
    obtain ⟨passed, rfl⟩ := outcome_of_map done
    obtain ⟨project, before, page, after, root, shown, updated, rfl⟩ :=
      displays_of_editNode passed fun root present => Node.exists_updateStyles present styles
    exact .updateNodeStyles shown updated
  | deleteNode id =>
    obtain ⟨passed, rfl⟩ := outcome_of_map done
    exact commit_of_deleteNode passed
  | selectNode id =>
    cases done
    exact .selectNode id
  | setTool tool =>
    cases done
    exact .setTool tool
  | setZoom zoom =>
    obtain ⟨passed, rfl⟩ := outcome_of_map done
    unfold Workspace.setZoom at passed
    split at passed
    · cases passed
    · rename_i number
      cases passed
      exact .setZoom (by simpa using number)

end Workspace

end PageDesigner
