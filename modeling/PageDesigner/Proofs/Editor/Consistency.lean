import Mathlib.Data.List.Forall2
import PageDesigner.Proofs.Double.Comparison
import PageDesigner.Proofs.Editor.Minting

/-!
Every workspace that a session can reach is consistent: a page is on display if and only if a
project is open, the pages stand in the order in which their ids were minted, every root is the
frame that came with its page, and the zoom is within its bounds.
-/

namespace PageDesigner

namespace Page

/-- The page's id stands at the position among the minted ids, and that of its root, which is a
frame, comes right after it. -/
structure MintedAt (minted : List String) (position : Nat) (page : Page) : Prop where
  id_eq : minted[position]? = some page.id
  rootId_eq : minted[position + 1]? = some page.root.id
  rootKind : page.root.kind = .frame

def InOrder (minted : List String) (pages : List Page) : Prop :=
  ∃ positions : List Nat, positions.Pairwise (· < ·) ∧
    List.Forall₂ (MintedAt minted) positions pages

variable {minted : List String} {before after pages : List Page} {page changed : Page}

theorem MintedAt.mono {position : Nat} (placed : page.MintedAt minted position)
    (more : List String) : page.MintedAt (minted ++ more) position := by
  obtain ⟨idBound, -⟩ := List.getElem?_eq_some_iff.mp placed.id_eq
  obtain ⟨rootBound, -⟩ := List.getElem?_eq_some_iff.mp placed.rootId_eq
  refine ⟨?_, ?_, placed.rootKind⟩
  · rw [List.getElem?_append_left idBound, placed.id_eq]
  · rw [List.getElem?_append_left rootBound, placed.rootId_eq]

theorem MintedAt.last (minted : List String) (page : Page) (frame : page.root.kind = .frame) :
    page.MintedAt (minted ++ page.ids) minted.length := by
  refine ⟨?_, ?_, frame⟩ <;> simp [ids]

theorem InOrder.mono (ordered : InOrder minted pages) (more : List String) :
    InOrder (minted ++ more) pages := by
  obtain ⟨positions, increasing, placed⟩ := ordered
  exact ⟨positions, increasing, placed.imp fun _ _ place => place.mono more⟩

/-- A page whose ids are minted last comes last. -/
theorem InOrder.append_minted (ordered : InOrder minted pages) (page : Page)
    (frame : page.root.kind = .frame) : InOrder (minted ++ page.ids) (pages ++ [page]) := by
  obtain ⟨positions, increasing, placed⟩ := ordered
  have below : ∀ position ∈ positions, position < minted.length := by
    clear increasing
    induction placed with
    | nil => simp
    | cons place _ ih =>
      obtain ⟨bound, -⟩ := List.getElem?_eq_some_iff.mp place.id_eq
      simpa [bound] using ih
  refine ⟨positions ++ [minted.length], ?_, ?_⟩
  · rw [List.pairwise_append]
    exact ⟨increasing, List.pairwise_singleton _ _, by simpa using below⟩
  · exact List.rel_append (placed.imp fun _ _ place => place.mono page.ids)
      (.cons (MintedAt.last minted page frame) .nil)

theorem InOrder.split (ordered : InOrder minted (before ++ page :: after)) :
    ∃ front position back, (front ++ position :: back).Pairwise (· < ·) ∧
      List.Forall₂ (MintedAt minted) front before ∧ page.MintedAt minted position ∧
      List.Forall₂ (MintedAt minted) back after := by
  obtain ⟨positions, increasing, placed⟩ := ordered
  have front := List.forall₂_take_append positions before (page :: after) placed
  have rest := List.forall₂_drop_append positions before (page :: after) placed
  obtain ⟨position, back, place, behind, cut⟩ := List.forall₂_cons_right_iff.mp rest
  have whole := List.take_append_drop before.length positions
  rw [cut] at whole
  exact ⟨positions.take before.length, position, back, by rwa [whole], front, place, behind⟩

theorem InOrder.erase (ordered : InOrder minted (before ++ page :: after)) :
    InOrder minted (before ++ after) := by
  obtain ⟨front, position, back, increasing, ahead, -, behind⟩ := ordered.split
  have fewer : (front ++ back).Sublist (front ++ position :: back) :=
    (List.Sublist.refl front).append (List.sublist_cons_self position back)
  exact ⟨front ++ back, increasing.sublist fewer, List.rel_append ahead behind⟩

/-- The order goes by nothing that an edit may change. -/
theorem InOrder.replace (ordered : InOrder minted (before ++ page :: after))
    (sameId : changed.id = page.id) (sameRoot : changed.root.SameRoot page.root) :
    InOrder minted (before ++ changed :: after) := by
  obtain ⟨front, position, back, increasing, ahead, place, behind⟩ := ordered.split
  have changedPlace : changed.MintedAt minted position :=
    ⟨by rw [sameId, place.id_eq], by rw [sameRoot.1, place.rootId_eq],
      by rw [sameRoot.2, place.rootKind]⟩
  exact ⟨_, increasing, List.rel_append ahead (.cons changedPlace behind)⟩

end Page

namespace Workspace

/-- A number that passes both comparisons lies between the bounds. -/
theorem clampZoom_between {zoom : Float} (number : zoom.isNaN = false) :
    (clampZoom zoom).isNaN = false ∧ 0.25 ≤ clampZoom zoom ∧ clampZoom zoom ≤ 2 := by
  unfold clampZoom
  split
  · exact ⟨by decide, by decide, by decide⟩
  · rename_i notBelow
    split
    · exact ⟨by decide, by decide, by decide⟩
    · rename_i notAbove
      exact ⟨number, float_le_of_not_lt number (by decide) notBelow,
        float_le_of_not_lt (by decide) number notAbove⟩

/-- What every command keeps, given the ids that were minted so far. -/
structure Consistent (minted : List String) (workspace : Workspace) : Prop where
  closed : workspace.project = none → workspace.pageId = none
  ordered : ∀ project, workspace.project = some project → Page.InOrder minted project.pages
  shown : ∀ project, workspace.project = some project →
    ∃ id ∈ project.pages.map Page.id, workspace.pageId = some id
  zoom : workspace.zoom.isNaN = false ∧ 0.25 ≤ workspace.zoom ∧ workspace.zoom ≤ 2

variable {minted : List String} {workspace next : Workspace} {project : Project}
  {before after : List Page} {page changed : Page}

theorem Consistent.initial : Consistent [] {} where
  closed := fun _ => rfl
  ordered := by simp
  shown := by simp
  zoom := ⟨by decide, by decide, by decide⟩

theorem Consistent.mono (consistent : workspace.Consistent minted) (more : List String) :
    workspace.Consistent (minted ++ more) where
  closed := consistent.closed
  ordered := fun project opened => (consistent.ordered project opened).mono more
  shown := consistent.shown
  zoom := consistent.zoom

theorem Consistent.of_open (opened : next.project = some project)
    (ordered : Page.InOrder minted project.pages)
    (shown : ∃ id ∈ project.pages.map Page.id, next.pageId = some id)
    (zoom : next.zoom.isNaN = false ∧ 0.25 ≤ next.zoom ∧ next.zoom ≤ 2) :
    next.Consistent minted where
  closed := by simp [opened]
  ordered := by simpa [opened] using ordered
  shown := by simpa [opened] using shown
  zoom := zoom

/-- One page gives way to another with the same ids and the same kind of root. -/
theorem Consistent.replace (consistent : workspace.Consistent minted)
    (opened : workspace.project = some project) (split : project.pages = before ++ page :: after)
    (sameId : changed.id = page.id) (sameRoot : changed.root.SameRoot page.root) :
    (workspace.withPages project (before ++ changed :: after)).Consistent minted := by
  have ordered := consistent.ordered project opened
  have shown := consistent.shown project opened
  rw [split] at ordered shown
  have ids : (before ++ changed :: after).map Page.id = (before ++ page :: after).map Page.id := by
    simp [sameId]
  exact .of_open rfl (ordered.replace sameId sameRoot) (by rwa [ids]) consistent.zoom

theorem Consistent.replaceRoot {root : Node} (consistent : workspace.Consistent minted)
    (shown : workspace.Displays project before page after) (sameRoot : root.SameRoot page.root) :
    (workspace.withPages project (before ++ { page with root } :: after)).Consistent minted :=
  consistent.replace shown.opened shown.split rfl sameRoot

/-- A page that is no longer shown may go, as long as the one on display stays. -/
theorem Consistent.erase (consistent : workspace.Consistent minted)
    (opened : workspace.project = some project) (split : project.pages = before ++ page :: after)
    (shown : ∃ id ∈ (before ++ after).map Page.id, next.pageId = some id)
    (rest : next.project = some { project with pages := before ++ after })
    (zoom : next.zoom = workspace.zoom) : next.Consistent minted := by
  have ordered := consistent.ordered project opened
  rw [split] at ordered
  exact .of_open rest ordered.erase shown (zoom ▸ consistent.zoom)

/-- What is selected, and with which tool, does not matter. -/
theorem Consistent.select (consistent : workspace.Consistent minted) (selectedId : Option String) :
    ({ workspace with selectedId } : Workspace).Consistent minted :=
  ⟨consistent.closed, consistent.ordered, consistent.shown, consistent.zoom⟩

theorem consistent_createProject (zoom : workspace.zoom.isNaN = false ∧ 0.25 ≤ workspace.zoom ∧
    workspace.zoom ≤ 2) (ids : IdSource) (name : String) :
    (workspace.createProject ids name).1.Consistent
      (minted ++ (Command.createProject name).mintedIds (workspace.createProject ids name).1) := by
  let page := (mintPage ids.mint.2 firstPageName).1
  have ordered : Page.InOrder (minted ++ ids.mint.1 :: page.ids) [page] := by
    have last := Page.MintedAt.last (minted ++ [ids.mint.1]) page rfl
    rw [List.append_assoc, List.singleton_append] at last
    exact ⟨_, List.pairwise_singleton _ _, .cons last .nil⟩
  have created : (Command.createProject name).mintedIds (workspace.createProject ids name).1 =
      ids.mint.1 :: page.ids := by
    simp [Command.mintedIds, createProject, Project.single, page]
  rw [created]
  exact .of_open rfl ordered ⟨page.id, List.mem_singleton_self _, rfl⟩ zoom

theorem Commit.consistent {ids source : IdSource} {command : Command}
    (committed : workspace.Commit ids command next source)
    (consistent : workspace.Consistent minted) :
    next.Consistent (minted ++ command.mintedIds next) := by
  cases committed with
  | createProject name => exact consistent_createProject consistent.zoom ids name
  | addPage name opened =>
    have ordered := (consistent.ordered _ opened).append_minted (mintPage ids name).1 rfl
    simp only [Command.mintedIds, withPages, List.getLast?_concat, Option.map_some,
      Option.getD_some]
    exact .of_open rfl ordered ⟨_, by simp, rfl⟩ consistent.zoom
  -- The other commands mint no ids.
  | deleteShownPage shown rest =>
    refine .mono ?_ _
    obtain ⟨first, others, left⟩ := List.exists_cons_of_ne_nil rest
    refine consistent.erase shown.opened shown.split ⟨first.id, ?_, ?_⟩ rfl rfl
    · simp [left]
    · simp [left]
  | deleteOtherPage opened split hidden =>
    refine .mono ?_ _
    obtain ⟨id, member, current⟩ := consistent.shown _ opened
    rw [split, List.map_append, List.map_cons, List.mem_append, List.mem_cons] at member
    have different : ∀ {other : Page}, workspace.pageId ≠ some other.id → id ≠ other.id := by
      intro other hidden same
      exact hidden (by rw [current, same])
    have kept := member.imp_right fun later => later.resolve_left (different hidden)
    exact consistent.erase opened split ⟨id, by simpa using kept, current⟩ rfl rfl
  | renamePage name opened split first =>
    refine .mono ?_ _
    exact consistent.replace opened split rfl ⟨rfl, rfl⟩
  | setCurrentPage opened member =>
    refine .mono ?_ _
    exact .of_open opened (consistent.ordered _ opened) ⟨_, List.mem_map_of_mem member, rfl⟩
      consistent.zoom
  | addNode shown absent inserted =>
    refine .mono ?_ _
    exact (consistent.replaceRoot shown (Node.insertChild_sameRoot inserted)).select _
  | updateNode shown updated =>
    refine .mono ?_ _
    exact consistent.replaceRoot shown (Node.update_sameRoot updated)
  | updateNodeLayout shown updated =>
    obtain ⟨whole, updated⟩ := Node.updateLayout_eq_update updated
    refine .mono ?_ _
    exact consistent.replaceRoot shown (Node.update_sameRoot updated)
  | updateNodeStyles shown updated =>
    obtain ⟨whole, updated⟩ := Node.updateStyles_eq_update updated
    refine .mono ?_ _
    exact consistent.replaceRoot shown (Node.update_sameRoot updated)
  | deleteNode shown notRoot found deleted =>
    refine .mono ?_ _
    exact (consistent.replaceRoot shown (Node.delete_sameRoot deleted)).select _
  | selectNode id =>
    refine .mono ?_ _
    exact consistent.select id
  | setTool tool =>
    refine .mono ?_ _
    exact ⟨consistent.closed, consistent.ordered, consistent.shown, consistent.zoom⟩
  | setZoom number =>
    refine .mono ?_ _
    exact ⟨consistent.closed, consistent.ordered, consistent.shown, clampZoom_between number⟩

end Workspace

theorem Project.exists_page? {project : Project} {id : String}
    (member : id ∈ project.pages.map Page.id) :
    ∃ page ∈ project.pages, page.id = id ∧ project.page? id = some page := by
  obtain ⟨page, inside, same⟩ := List.mem_map.mp member
  have present : (project.page? id).isSome = true :=
    List.find?_isSome.mpr ⟨page, inside, decide_eq_true same⟩
  obtain ⟨first, found⟩ := Option.isSome_iff_exists.mp present
  exact ⟨first, List.mem_of_find?_eq_some found, by simpa using List.find?_some found, found⟩

namespace Session

variable {α : Type}

theorem event_consistent {minted : List String} (session : Session α) (action : Action α)
    (consistent : session.workspace.Consistent minted) :
    (session.event action).after.workspace.Consistent
      (minted ++ (session.event action).mintedIds) := by
  cases action with
  | dispatch command =>
    cases done : session.workspace.apply session.ids command with
    | ok outcome =>
      rw [session.event_of_committed done]
      exact (Workspace.commit_of_apply done).consistent consistent
    | error reason =>
      rw [session.event_of_refused done]
      exact consistent.mono _
  | mintId => exact consistent.mono _
  | subscribe listener => exact consistent.mono _
  | unsubscribe id => exact consistent.mono _

theorem run_consistent (label : String) (actions : List (Action α)) :
    ((new label).run actions).1.workspace.Consistent ((new label).mintedIds actions) := by
  let Holds (past : List (Event α)) (current : Session α) : Prop :=
    current.workspace.Consistent (past.flatMap Event.mintedIds)
  have keeps : ∀ past current action, Holds past current →
      Holds (past ++ [current.event action]) (current.event action).after := by
    intro past current action consistent
    simpa [Holds] using current.event_consistent action consistent
  exact run_keeps Holds keeps (new label) Workspace.Consistent.initial actions

/-- While the counter has not wrapped around, the position of an id tells its text. -/
theorem mintedIds_getElem? {label : String} {actions : List (Action α)} {position : Nat}
    {id : String} (few : ((new label).mintedIds actions).length < UInt64.size)
    (minted : ((new label).mintedIds actions)[position]? = some id) :
    id = IdSource.idText (seedFor label) (position + 1) := by
  rw [mintedIds_new, IdSource.ofLabel, IdSource.mintMany_ofSeed _ _ few,
    List.getElem?_map] at minted
  obtain ⟨count, counted, rfl⟩ := Option.map_eq_some_iff.mp minted
  obtain ⟨bound, rfl⟩ := List.getElem?_eq_some_iff.mp counted
  simp [Nat.add_comm]

/-- What a session shows after any run in which the counter of its ids does not wrap around. -/
theorem reachable_workspace_consistent (label : String) (actions : List (Action α))
    (few : ((new label).mintedIds actions).length < UInt64.size) :
    let minted := (new label).mintedIds actions
    let workspace := ((new label).run actions).1.workspace
    (workspace.project = none → workspace.pageId = none) ∧
    (∀ project, workspace.project = some project →
      project.pages ≠ [] ∧
      (project.pages.map Page.id).Nodup ∧
      (∃ positions : List Nat, positions.Pairwise (· < ·) ∧
        List.Forall₂ (fun position page => Page.MintedAt minted position page ∧
          page.id = IdSource.idText (seedFor label) (position + 1) ∧
          page.root.id = IdSource.idText (seedFor label) (position + 2)) positions project.pages) ∧
      ∃ page ∈ project.pages, workspace.pageId = some page.id ∧ workspace.page? = some page) ∧
    workspace.zoom.isNaN = false ∧ 0.25 ≤ workspace.zoom ∧ workspace.zoom ≤ 2 := by
  intro minted workspace
  have consistent : workspace.Consistent minted := run_consistent label actions
  refine ⟨consistent.closed, ?_, consistent.zoom⟩
  intro project opened
  obtain ⟨positions, increasing, placed⟩ := consistent.ordered project opened
  obtain ⟨id, member, current⟩ := consistent.shown project opened
  obtain ⟨page, inside, rfl, found⟩ := Project.exists_page? member
  have texts : ∀ position page, Page.MintedAt minted position page →
      page.id = IdSource.idText (seedFor label) (position + 1) ∧
        page.root.id = IdSource.idText (seedFor label) (position + 2) := by
    intro position page place
    exact ⟨mintedIds_getElem? few place.id_eq, mintedIds_getElem? few place.rootId_eq⟩
  have distinct : (project.pages.map Page.id).Nodup := by
    let text (position : Nat) := IdSource.idText (seedFor label) (position + 1)
    have ids : List.Forall₂ (· = ·) (positions.map text) (project.pages.map Page.id) := by
      rw [List.forall₂_map_left_iff, List.forall₂_map_right_iff]
      exact placed.imp fun position page place => (texts position page place).1.symm
    rw [List.forall₂_eq_eq_eq] at ids
    rw [← ids]
    have injective : Function.Injective text :=
      (IdSource.idText_injective _).comp fun _ _ => Nat.succ.inj
    exact List.Nodup.map injective (increasing.imp Nat.ne_of_lt)
  refine ⟨List.ne_nil_of_mem inside, distinct, ⟨positions, increasing, ?_⟩,
    page, inside, current, ?_⟩
  · exact placed.imp fun position page place => ⟨place, texts position page place⟩
  · simp [Workspace.page?, opened, current, found]

/-- The first page goes after a second one was added, the last page stays, and the zoom is cut. -/
theorem workspace_consistent_after_deletions :
    let actions : List (Action Unit) := [.dispatch (.createProject "Site"), .mintId,
      .dispatch (.addPage "About"), .dispatch (.setCurrentPage "0-2"),
      .dispatch (.deletePage "0-2"), .dispatch (.deletePage "0-5"), .dispatch (.setZoom 5)]
    let workspace := ((new "").run actions).1.workspace
    (new "").mintedIds actions = ["0-1", "0-2", "0-3", "0-4", "0-5", "0-6"] ∧
    workspace.zoom ≤ 2 ∧
    ∃ project, workspace.project = some project ∧ project.pages.map Page.id = ["0-5"] ∧
      ∃ page ∈ project.pages, workspace.pageId = some page.id ∧ workspace.page? = some page := by
  intro actions workspace
  have minted : (new "").mintedIds actions = ["0-1", "0-2", "0-3", "0-4", "0-5", "0-6"] := by
    decide +kernel
  have pages : workspace.project.map (fun project => project.pages.map Page.id) = some ["0-5"] := by
    decide +kernel
  obtain ⟨project, opened, ids⟩ := Option.map_eq_some_iff.mp pages
  obtain ⟨-, inProject, -, -, zoom⟩ :=
    reachable_workspace_consistent "" actions (by rw [minted]; decide)
  obtain ⟨-, -, -, shown⟩ := inProject project opened
  exact ⟨minted, zoom, project, opened, ids, shown⟩

end Session

end PageDesigner
