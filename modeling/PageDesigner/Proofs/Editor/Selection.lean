import PageDesigner.Proofs.Editor.History
import PageDesigner.Proofs.Tree.Removal

/-!
What a deletion does to the selection. Whether the selection goes is decided by the first subtree
with the deleted id, while all of them go. The selection is therefore sound except where it pointed
into one of the others and nowhere else, which cannot be where the deleted id occurs once.
-/

namespace PageDesigner

/-- With the first id all occurrences of the other go, though none of them lies in the first subtree
that goes. -/
def Node.Strands (root : Node) (id other : String) : Prop :=
  ∃ first rest, root.removed id = first :: rest ∧ first.contains other = false ∧
    0 < root.count other ∧ Node.countAll other rest = root.count other

namespace Workspace

variable {workspace next : Workspace} {project : Project} {before after : List Page} {page : Page}

theorem Displays.replaceRoot (shown : workspace.Displays project before page after) {root : Node}
    (opened : next.project = some { project with pages := before ++ { page with root } :: after })
    (current : next.pageId = workspace.pageId) : next.page? = some { page with root } := by
  have shownNext : next.Displays { project with pages := before ++ { page with root } :: after }
      before { page with root } after :=
    ⟨opened, by rw [current, shown.current], rfl, shown.first⟩
  exact shownNext.page?_eq

theorem selected?_isSome_iff (shown : workspace.page? = some page) :
    workspace.selected?.isSome = true ↔
      ∃ id, workspace.selectedId = some id ∧ 0 < page.root.count id := by
  cases selection : workspace.selectedId with
  | none => simp [selected?, shown, selection]
  | some id =>
    simp only [selected?, shown, selection, Option.bind_eq_bind, Option.bind_some,
      Option.some.injEq, exists_eq_left', ← Node.contains_iff_count_pos, Node.contains]

/-- The workspace after a deletion, as far as the selection goes by it. -/
structure Deletion (workspace : Workspace) (id : String) (next : Workspace) (page : Page)
    (first : Node) (rest : List Node) (left : Node) : Prop where
  shown : workspace.page? = some page
  deleted : page.root.delete id = some left
  goes : page.root.removed id = first :: rest
  shownNext : next.page? = some { page with root := left }
  selection : next.selectedId =
    if workspace.selectedId.any first.contains then none else workspace.selectedId

theorem Commit.deletion {ids source : IdSource} {id : String}
    (committed : workspace.Commit ids (.deleteNode id) next source) :
    ∃ page first rest left, workspace.Deletion id next page first rest left := by
  cases committed with
  | @deleteNode project before after page removed left id shown notRoot found deleted =>
    obtain ⟨rest, goes⟩ := Node.removed_eq_cons notRoot found
    exact ⟨page, removed, rest, left, shown.page?_eq, deleted, goes,
      shown.replaceRoot rfl rfl, rfl⟩

namespace Deletion

variable {id : String} {first left : Node} {rest : List Node}

theorem count_eq (deletion : workspace.Deletion id next page first rest left) (other : String) :
    left.count other + (first.count other + Node.countAll other rest) = page.root.count other := by
  rw [← Node.delete_count deletion.deleted other, deletion.goes, Node.countAll_cons]

theorem selection_of_none (deletion : workspace.Deletion id next page first rest left)
    (nothing : workspace.selectedId = none) : next.selectedId = none := by
  rw [deletion.selection, nothing]
  rfl

theorem selection_of_inside (deletion : workspace.Deletion id next page first rest left)
    {selected : String} (selection : workspace.selectedId = some selected)
    (inside : first.contains selected = true) : next.selectedId = none := by
  rw [deletion.selection, selection, Option.any_some, if_pos inside]

theorem selection_of_outside (deletion : workspace.Deletion id next page first rest left)
    {selected : String} (selection : workspace.selectedId = some selected)
    (outside : first.contains selected = false) : next.selectedId = some selected := by
  rw [deletion.selection, selection, Option.any_some, outside]
  rfl

theorem strands_iff (deletion : workspace.Deletion id next page first rest left)
    (selected : String) :
    page.root.Strands id selected ↔ first.contains selected = false ∧
      0 < page.root.count selected ∧ left.count selected = 0 := by
  have total := deletion.count_eq selected
  constructor
  · rintro ⟨found, others, goes, outside, present, all⟩
    rw [deletion.goes, List.cons.injEq] at goes
    obtain ⟨rfl, rfl⟩ := goes
    exact ⟨outside, present, by omega⟩
  · rintro ⟨outside, present, gone⟩
    have none := (Node.contains_eq_false_iff first selected).mp outside
    exact ⟨first, rest, deletion.goes, outside, present, by omega⟩

/-- The selection is cleared or still points to a node unless it is stranded. -/
theorem sound_iff (deletion : workspace.Deletion id next page first rest left) :
    (workspace.selected?.isSome = true →
        next.selectedId = none ∨ next.selected?.isSome = true) ↔
      ∀ selected, workspace.selectedId = some selected → ¬page.root.Strands id selected := by
  rw [selected?_isSome_iff deletion.shown, selected?_isSome_iff deletion.shownNext]
  cases selection : workspace.selectedId with
  | none => simp
  | some selected =>
    cases inside : first.contains selected with
    | true =>
      have cleared := deletion.selection_of_inside selection inside
      simp [cleared, deletion.strands_iff, inside]
    | false =>
      have kept := deletion.selection_of_outside selection inside
      simp [kept, deletion.strands_iff, inside, Nat.pos_iff_ne_zero]

theorem sound_of_once (deletion : workspace.Deletion id next page first rest left)
    (once : page.root.count id ≤ 1) :
    workspace.selected?.isSome = true →
      next.selectedId = none ∨ next.selected?.isSome = true := by
  refine deletion.sound_iff.mpr ?_
  rintro selected - ⟨found, others, goes, -, present, all⟩
  have single := Node.removed_eq_singleton deletion.deleted goes once
  rw [single, Node.countAll_nil] at all
  omega

theorem cleared_only_inside (deletion : workspace.Deletion id next page first rest left)
    (changed : next.selectedId ≠ workspace.selectedId) :
    next.selectedId = none ∧ ∃ selected, workspace.selectedId = some selected ∧
      ∃ subtree ∈ page.root.removed id, subtree.contains selected = true := by
  cases selection : workspace.selectedId with
  | none => exact absurd ((deletion.selection_of_none selection).trans selection.symm) changed
  | some selected =>
    cases inside : first.contains selected with
    | true =>
      refine ⟨deletion.selection_of_inside selection inside, selected, rfl, first, ?_, inside⟩
      rw [deletion.goes]
      exact List.mem_cons_self
    | false =>
      exact absurd ((deletion.selection_of_outside selection inside).trans selection.symm) changed

theorem unresolved_stays (deletion : workspace.Deletion id next page first rest left)
    (unresolved : workspace.selected? = none) : next.selectedId = workspace.selectedId := by
  cases selection : workspace.selectedId with
  | none => exact deletion.selection_of_none selection
  | some selected =>
    have nowhere : ¬0 < page.root.count selected := by
      intro present
      have resolved := (selected?_isSome_iff deletion.shown).mpr ⟨selected, selection, present⟩
      rw [unresolved] at resolved
      exact Bool.false_ne_true resolved
    have total := deletion.count_eq selected
    have outside : first.contains selected = false :=
      (Node.contains_eq_false_iff first selected).mpr (by omega)
    exact deletion.selection_of_outside selection outside

end Deletion

end Workspace

namespace Session

variable {α : Type}

/-- In every state, whatever the ids on the page: the selection stays sound unless the deletion
strands it, it goes only with a subtree that holds it, and it stays where it pointed to nothing. -/
theorem selection_after_deletion (session : Session α) (id : String)
    (committed : (session.dispatch (.deleteNode id)).2.1 = .committed) :
    let before := session.workspace
    let after := (session.dispatch (.deleteNode id)).1.workspace
    ∃ page, before.page? = some page ∧
      ((before.selected?.isSome = true → after.selectedId = none ∨ after.selected?.isSome = true) ↔
        ∀ selected, before.selectedId = some selected → ¬page.root.Strands id selected) ∧
      (page.root.count id ≤ 1 → before.selected?.isSome = true →
        after.selectedId = none ∨ after.selected?.isSome = true) ∧
      (after.selectedId ≠ before.selectedId → after.selectedId = none ∧
        ∃ selected, before.selectedId = some selected ∧
          ∃ subtree ∈ page.root.removed id, subtree.contains selected = true) ∧
      (before.selected? = none → after.selectedId = before.selectedId) := by
  intro before after
  obtain ⟨page, first, rest, left, deletion⟩ := (commit_of_committed committed).deletion
  exact ⟨page, deletion.shown, deletion.sound_iff, deletion.sound_of_once,
    deletion.cleared_only_inside, deletion.unresolved_stays⟩

/-- A selection that points to nothing outlives the deletion of two nodes with one id. -/
theorem unresolved_selection_outlives_twins :
    let twin : Node := .text "twin" "Label"
    let actions : List (Action Unit) := [.dispatch (.createProject "Site"),
      .dispatch (.addNode ((Node.frame "pair" "Pair").withChildren [twin, twin]) none),
      .dispatch (.selectNode (some "elsewhere"))]
    let session := ((new "").run actions).1
    let result := session.dispatch (.deleteNode "twin")
    result.2.1 = .committed ∧ result.1.workspace.selectedId = some "elsewhere" := by
  intro twin actions session result
  have committed : result.2.1 = .committed := by decide +kernel
  have selection : session.workspace.selectedId = some "elsewhere" := by decide +kernel
  have unresolved : session.workspace.selected? = none := by decide +kernel
  obtain ⟨page, -, -, -, -, stays⟩ := selection_after_deletion session "twin" committed
  exact ⟨committed, (stays unresolved).trans selection⟩

/-- The selected node lies in the second of two nodes with one id, and goes with it. -/
theorem selection_left_dangling :
    let inner : Node := (Node.frame "twin" "Right").withChildren [.text "note" "Note"]
    let actions : List (Action Unit) := [.dispatch (.createProject "Site"),
      .dispatch (.addNode ((Node.frame "pair" "Pair").withChildren [.frame "twin" "Left", inner])
        none),
      .dispatch (.selectNode (some "note"))]
    let session := ((new "").run actions).1
    let result := session.dispatch (.deleteNode "twin")
    session.workspace.selected?.isSome = true ∧ result.2.1 = .committed ∧
      result.1.workspace.selectedId = some "note" ∧ result.1.workspace.selected? = none := by
  decide +kernel

end Session

end PageDesigner
