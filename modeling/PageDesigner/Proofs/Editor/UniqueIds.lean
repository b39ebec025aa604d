import PageDesigner.Proofs.Editor.History
import PageDesigner.Proofs.Tree.DistinctIds
import PageDesigner.Proofs.Tree.Removal

/-!
When the ids of a page are distinct. Every command keeps them so, except that an insertion goes by
the id of the inserted node alone: the ids further down in it may repeat one another or those of the
page.
-/

namespace PageDesigner

namespace Workspace

/-- No id occurs twice on one page. -/
def DistinctIds (workspace : Workspace) : Prop :=
  ∀ project, workspace.project = some project → ∀ page ∈ project.pages, page.root.DistinctIds

variable {workspace next : Workspace} {project : Project} {before after : List Page}
  {page changed : Page}

theorem DistinctIds.of_open (opened : next.project = some project)
    (distinct : ∀ page ∈ project.pages, page.root.DistinctIds) : next.DistinctIds := by
  intro other same
  rw [opened, Option.some.injEq] at same
  exact same ▸ distinct

theorem DistinctIds.of_split (distinct : workspace.DistinctIds)
    (opened : workspace.project = some project) (split : project.pages = before ++ page :: after) :
    page.root.DistinctIds :=
  distinct project opened page (by simp [split])

theorem DistinctIds.erase (distinct : workspace.DistinctIds)
    (opened : workspace.project = some project) (split : project.pages = before ++ page :: after) :
    (workspace.withPages project (before ++ after)).DistinctIds := by
  refine .of_open rfl ?_
  intro other member
  refine distinct project opened other ?_
  rw [split, List.mem_append, List.mem_cons]
  exact (List.mem_append.mp member).imp_right Or.inr

/-- Whether a page may give way to another is up to the tree of the other alone. -/
theorem DistinctIds.replace_iff (distinct : workspace.DistinctIds)
    (opened : workspace.project = some project) (split : project.pages = before ++ page :: after) :
    (workspace.withPages project (before ++ changed :: after)).DistinctIds ↔
      changed.root.DistinctIds := by
  constructor
  · intro distinctAfter
    exact distinctAfter.of_split rfl rfl
  · intro distinctRoot
    refine .of_open rfl ?_
    intro other member
    rcases List.mem_append.mp member with inFront | behind
    · exact distinct.erase opened split _ rfl other (List.mem_append_left after inFront)
    · rcases List.mem_cons.mp behind with rfl | behind
      · exact distinctRoot
      · exact distinct.erase opened split _ rfl other (List.mem_append_right before behind)

theorem DistinctIds.replace (distinct : workspace.DistinctIds)
    (opened : workspace.project = some project) (split : project.pages = before ++ page :: after)
    (fewer : ∀ id, changed.root.count id ≤ page.root.count id) :
    (workspace.withPages project (before ++ changed :: after)).DistinctIds :=
  (distinct.replace_iff opened split).mpr ((distinct.of_split opened split).of_count_le fewer)

theorem DistinctIds.update {root : Node} {id : String} {patch : ElementPatch}
    (distinct : workspace.DistinctIds) (shown : workspace.Displays project before page after)
    (updated : page.root.update id patch = some root) :
    (workspace.withPages project (before ++ { page with root } :: after)).DistinctIds := by
  have same := Node.update_count updated
  exact distinct.replace shown.opened shown.split fun id => Nat.le_of_eq (same id)

theorem DistinctIds.insert_iff {node root : Node} {parentId : String}
    (distinct : workspace.DistinctIds) (shown : workspace.Displays project before page after)
    (inserted : page.root.insertChild parentId node = some root) :
    (workspace.withPages project (before ++ { page with root } :: after)).DistinctIds ↔
      node.FreshFor page.root :=
  (distinct.replace_iff shown.opened shown.split).trans
    (Node.insertChild_distinctIds_iff (distinct.of_split shown.opened shown.split) inserted)

/-- What an insertion would have to make sure of. -/
def InsertsFresh (workspace : Workspace) (command : Command) : Prop :=
  ∀ node parentId page, command = .addNode node parentId → workspace.page? = some page →
    node.FreshFor page.root

theorem Commit.distinctIds_iff {ids source : IdSource} {command : Command}
    (committed : workspace.Commit ids command next source) (distinct : workspace.DistinctIds) :
    next.DistinctIds ↔ workspace.InsertsFresh command := by
  have keeps (kept : next.DistinctIds) (other : ∀ node parentId, command ≠ .addNode node parentId) :
      next.DistinctIds ↔ workspace.InsertsFresh command :=
    iff_of_true kept fun node parentId _ same => absurd same (other node parentId)
  cases committed with
  | createProject name =>
    refine keeps (.of_open rfl ?_) nofun
    intro page member
    rw [List.mem_singleton.mp member]
    exact Node.defaultRoot_distinctIds _
  | addPage name opened =>
    refine keeps (.of_open rfl ?_) nofun
    intro page member
    rcases List.mem_append.mp member with old | new
    · exact distinct _ opened page old
    · rw [List.mem_singleton.mp new]
      exact Node.defaultRoot_distinctIds _
  | deleteShownPage shown rest => exact keeps (distinct.erase shown.opened shown.split) nofun
  | deleteOtherPage opened split hidden => exact keeps (distinct.erase opened split) nofun
  | renamePage name opened split first =>
    exact keeps (distinct.replace opened split fun _ => Nat.le_refl _) nofun
  | setCurrentPage opened member => exact keeps distinct nofun
  | addNode shown absent inserted =>
    have exactly := distinct.insert_iff shown inserted
    constructor
    · intro distinctAfter other _ otherPage same onDisplay
      cases same
      rw [shown.page?_eq, Option.some.injEq] at onDisplay
      exact onDisplay ▸ exactly.mp distinctAfter
    · intro fresh
      exact exactly.mpr (fresh _ _ _ rfl shown.page?_eq)
  | updateNode shown updated => exact keeps (distinct.update shown updated) nofun
  | updateNodeLayout shown updated =>
    obtain ⟨whole, updated⟩ := Node.updateLayout_eq_update updated
    exact keeps (distinct.update shown updated) nofun
  | updateNodeStyles shown updated =>
    obtain ⟨whole, updated⟩ := Node.updateStyles_eq_update updated
    exact keeps (distinct.update shown updated) nofun
  | deleteNode shown notRoot found deleted =>
    have fewer := Node.delete_count_le deleted
    exact keeps (distinct.replace shown.opened shown.split fewer) nofun
  | selectNode id => exact keeps distinct nofun
  | setTool tool => exact keeps distinct nofun
  | setZoom number => exact keeps distinct nofun

end Workspace

/-- If the event is an insertion that was committed, its node was fresh for the page on display. -/
def Event.InsertsFresh {α : Type} (event : Event α) : Prop :=
  ∀ command, event.action = .dispatch command → event.reply = .committed →
    event.before.workspace.InsertsFresh command

namespace Session

variable {α : Type}

theorem event_distinctIds_iff (session : Session α) (action : Action α)
    (distinct : session.workspace.DistinctIds) :
    (session.event action).after.workspace.DistinctIds ↔ (session.event action).InsertsFresh := by
  cases action with
  | dispatch command =>
    cases done : session.workspace.apply session.ids command with
    | ok outcome =>
      rw [session.event_of_committed done]
      rw [(Workspace.commit_of_apply done).distinctIds_iff distinct]
      constructor
      · rintro fresh _ ⟨rfl⟩ -
        exact fresh
      · intro fresh
        exact fresh command rfl rfl
    | error reason =>
      rw [session.event_of_refused done]
      exact iff_of_true distinct fun _ _ committed => nomatch committed
  | mintId => exact iff_of_true distinct fun _ other => nomatch other
  | subscribe listener => exact iff_of_true distinct fun _ other => nomatch other
  | unsubscribe id => exact iff_of_true distinct fun _ other => nomatch other

theorem distinctIds_throughout_iff (session : Session α) (start : session.workspace.DistinctIds)
    (actions : List (Action α)) :
    (∀ past, past <+: actions → (session.run past).1.workspace.DistinctIds) ↔
      ∀ event ∈ session.history actions, event.InsertsFresh := by
  -- The session moves along, and its ids are distinct as long as all insertions were fresh.
  induction actions generalizing session with
  | nil =>
    refine iff_of_true ?_ (List.forall_mem_nil _)
    intro past nothing
    rw [List.prefix_nil.mp nothing]
    exact start
  | cons action actions ih =>
    have first := session.event_distinctIds_iff action start
    rw [history_cons, List.forall_mem_cons]
    constructor
    · intro distinct
      have next := distinct [action] (by simp)
      refine ⟨first.mp next, (ih _ next).mp ?_⟩
      intro past earlier
      exact distinct (action :: past) (by simpa using earlier)
    · rintro ⟨fresh, later⟩ past earlier
      rcases List.prefix_cons_iff.mp earlier with rfl | ⟨rest, rfl, inside⟩
      · exact start
      · exact (ih _ (first.mpr fresh)).mpr later rest inside

/-- The ids of every page stay distinct through a run if and only if each committed insertion brings
a subtree that repeats no id of its own or of the page that it goes into. -/
theorem page_ids_distinct_iff (label : String) (actions : List (Action α)) :
    (∀ past, past <+: actions → ((new label).run past).1.workspace.DistinctIds) ↔
      ∀ event ∈ (new label).history actions, event.InsertsFresh :=
  distinctIds_throughout_iff (new label) nofun actions

/-- Two nodes with one id come in below the node that the insertion looks at. -/
theorem page_ids_repeat :
    let twin : Node := .text "twin" "Label"
    let actions : List (Action Unit) := [.dispatch (.createProject "Site"),
      .dispatch (.addNode ((Node.frame "pair" "Pair").withChildren [twin, twin]) none)]
    let workspace := ((new "").run actions).1.workspace
    workspace.project.map (fun project => project.pages.map fun page => page.root.count "twin") =
      some [2] := by
  decide +kernel

end Session

end PageDesigner
