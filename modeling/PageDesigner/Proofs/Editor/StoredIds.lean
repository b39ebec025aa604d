import PageDesigner.Proofs.Editor.Minting
import PageDesigner.Proofs.Tree.Removal

/-!
All the ids that a document holds, of the project, its pages and their nodes, counted together.
Whatever the commands, no id is held more often than it was minted for the document or brought in
with a node. An id that was asked for is minted without being put into the document.
-/

namespace PageDesigner

namespace Node

def ids (root : Node) : List String := root.walk.map id

theorem count_ids (root : Node) (id : String) : root.ids.count id = root.count id := by
  rw [ids, List.count, List.countP_map]
  rfl

theorem id_mem_ids (root : Node) : root.id ∈ root.ids := by
  obtain ⟨element, children⟩ := root
  simp [ids, walk_eq, preorder]

end Node

namespace Page

/-- The ids of the page and of all its nodes. -/
def allIds (page : Page) : List String := page.id :: page.root.ids

theorem allIds_blank (id name rootId : String) :
    (blank id name rootId).allIds = (blank id name rootId).ids := by
  simp [allIds, ids, Node.ids, Node.walk_eq, blank, defaultRoot, Node.withStyles, Node.withLayout,
    Node.frame, Node.ofKind, Node.preorder, Node.preorderAll]

theorem count_allIds (page : Page) (id : String) :
    page.allIds.count id = page.root.count id + if page.id = id then 1 else 0 := by
  simp [allIds, List.count_cons, Node.count_ids]

end Page

def Project.allIds (project : Project) : List String :=
  project.id :: project.pages.flatMap Page.allIds

theorem Project.count_allIds_split {project : Project} {before after : List Page} {page : Page}
    (split : project.pages = before ++ page :: after) (id : String) :
    project.allIds.count id = { project with pages := before ++ after }.allIds.count id +
      page.allIds.count id := by
  simp only [allIds, split, List.count_cons, List.flatMap_append, List.flatMap_cons,
    List.count_append]
  omega

namespace Workspace

def allIds (workspace : Workspace) : List String :=
  (workspace.project.map Project.allIds).getD []

variable {workspace next : Workspace} {project : Project} {before after : List Page}
  {page changed : Page}

theorem allIds_of_open (opened : workspace.project = some project) :
    workspace.allIds = project.allIds := by
  rw [allIds, opened, Option.map_some, Option.getD_some]

theorem count_le_allIds (shown : workspace.page? = some page) (id : String) :
    page.root.count id ≤ workspace.allIds.count id := by
  obtain ⟨project, before, after, displays⟩ := displays_of_page? shown
  rw [allIds_of_open displays.opened, Project.count_allIds_split displays.split,
    Page.count_allIds]
  omega

theorem count_allIds_erase (opened : workspace.project = some project)
    (split : project.pages = before ++ page :: after) (id : String) :
    (workspace.withPages project (before ++ after)).allIds.count id ≤
      workspace.allIds.count id := by
  rw [allIds_of_open opened, Project.count_allIds_split split]
  exact Nat.le_add_right _ _

theorem count_allIds_replace {id : String} {extra : Nat} (opened : workspace.project = some project)
    (split : project.pages = before ++ page :: after) (sameId : changed.id = page.id)
    (more : changed.root.count id ≤ page.root.count id + extra) :
    (workspace.withPages project (before ++ changed :: after)).allIds.count id ≤
      workspace.allIds.count id + extra := by
  let next : Project := { project with pages := before ++ changed :: after }
  let others : Project := { project with pages := before ++ after }
  have whole : project.allIds.count id = others.allIds.count id + page.allIds.count id :=
    Project.count_allIds_split split id
  have wholeNext : next.allIds.count id = others.allIds.count id + changed.allIds.count id :=
    Project.count_allIds_split rfl id
  have openedNext : (workspace.withPages project next.pages).project = some next := rfl
  rw [allIds_of_open opened, allIds_of_open openedNext, whole, wholeNext, Page.count_allIds,
    Page.count_allIds, sameId]
  omega

theorem count_allIds_keep {id : String} (opened : workspace.project = some project)
    (split : project.pages = before ++ page :: after) (sameId : changed.id = page.id)
    (fewer : changed.root.count id ≤ page.root.count id) :
    (workspace.withPages project (before ++ changed :: after)).allIds.count id ≤
      workspace.allIds.count id := by
  have bounded : changed.root.count id ≤ page.root.count id + 0 := fewer
  exact count_allIds_replace opened split sameId bounded

theorem count_allIds_update (shown : workspace.Displays project before page after) {root : Node}
    {target : String} {patch : ElementPatch} (updated : page.root.update target patch = some root)
    (id : String) :
    (workspace.withPages project (before ++ { page with root } :: after)).allIds.count id ≤
      workspace.allIds.count id := by
  have same := Node.update_count updated id
  exact count_allIds_keep shown.opened shown.split rfl (Nat.le_of_eq same)

theorem allIds_createProject (workspace : Workspace) (ids : IdSource) (name : String) :
    (workspace.createProject ids name).1.allIds =
      (Command.createProject name).mintedIds (workspace.createProject ids name).1 := by
  simp [allIds, Project.allIds, Command.mintedIds, createProject, mintPage, Project.single,
    Page.allIds_blank]

theorem count_allIds_addPage (opened : workspace.project = some project) (ids : IdSource)
    (name id : String) :
    let next := workspace.withPages project (project.pages ++ [(mintPage ids name).1])
    next.allIds.count id =
      workspace.allIds.count id + ((Command.addPage name).mintedIds next).count id := by
  intro next
  let page := (mintPage ids name).1
  have minted : (Command.addPage name).mintedIds next = page.allIds := by
    simp [Command.mintedIds, next, withPages, page, mintPage, Page.allIds_blank]
  have openedNext : next.project = some { project with pages := project.pages ++ [page] } := rfl
  rw [minted, allIds_of_open opened, allIds_of_open openedNext, Project.allIds, Project.allIds,
    List.flatMap_append, List.flatMap_singleton, ← List.cons_append, List.count_append]

end Workspace

/-- What the command brings into the document with a node. -/
def Command.broughtIds : Command → List String
  | addNode node _ => node.ids
  | _ => []

namespace Workspace

variable {workspace next : Workspace}

/-- What a command adds to the ids of a document is among the ids that it mints or brings. -/
theorem Commit.count_allIds_le {ids source : IdSource} {command : Command}
    (committed : workspace.Commit ids command next source) (id : String) :
    next.allIds.count id ≤ workspace.allIds.count id + (command.mintedIds next).count id +
      command.broughtIds.count id := by
  have keeps (fewer : next.allIds.count id ≤ workspace.allIds.count id) :
      next.allIds.count id ≤ workspace.allIds.count id + (command.mintedIds next).count id +
        command.broughtIds.count id :=
    Nat.le_add_right_of_le (Nat.le_add_right_of_le fewer)
  cases committed with
  | createProject name =>
    rw [allIds_createProject]
    omega
  | addPage name opened =>
    exact Nat.le_add_right_of_le (Nat.le_of_eq (count_allIds_addPage opened ids name id))
  | deleteShownPage shown rest => exact keeps (count_allIds_erase shown.opened shown.split id)
  | deleteOtherPage opened split hidden => exact keeps (count_allIds_erase opened split id)
  | renamePage name opened split first =>
    exact keeps (count_allIds_keep opened split rfl (Nat.le_refl _))
  | setCurrentPage opened member => exact keeps (Nat.le_refl _)
  | @addNode project before after page node root parentId shown absent inserted =>
    have total := Node.insertChild_count inserted id
    rw [← Node.count_ids node] at total
    exact count_allIds_replace shown.opened shown.split rfl (Nat.le_of_eq total)
  | updateNode shown updated => exact keeps (count_allIds_update shown updated id)
  | updateNodeLayout shown updated =>
    obtain ⟨whole, updated⟩ := Node.updateLayout_eq_update updated
    exact keeps (count_allIds_update shown updated id)
  | updateNodeStyles shown updated =>
    obtain ⟨whole, updated⟩ := Node.updateStyles_eq_update updated
    exact keeps (count_allIds_update shown updated id)
  | deleteNode shown notRoot found deleted =>
    have fewer := Node.delete_count_le deleted id
    exact keeps (count_allIds_keep shown.opened shown.split rfl fewer)
  | selectNode id => exact keeps (Nat.le_refl _)
  | setTool tool => exact keeps (Nat.le_refl _)
  | setZoom number => exact keeps (Nat.le_refl _)

end Workspace

end PageDesigner
