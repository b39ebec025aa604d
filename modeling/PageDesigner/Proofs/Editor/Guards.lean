import PageDesigner.Proofs.Editor.Consistency
import PageDesigner.Proofs.Editor.NodeCommand
import PageDesigner.Proofs.Editor.Selection

/-!
The guards of the commands that concern nodes let through just what the edits behind them can do. A
guard searches the tree with a stack while the edit goes through it by recursion, so the two must
find the same nodes on every tree, also where ids repeat.
-/

namespace PageDesigner

namespace Node

variable (id : String)

theorem changeFirst_isSome_iff (change : Node → Node) (root : Node) :
    (changeFirst id change root).isSome = true ↔ root.contains id = true := by
  rw [changeFirst_isSome, contains_iff_count_pos]

/-- A deletion has something to do if and only if the walk meets the id after the root. -/
theorem delete_isSome_iff (root : Node) :
    (root.delete id).isSome = true ↔ ∃ node ∈ root.walk.tail, node.id = id := by
  obtain ⟨element, children⟩ := root
  rw [delete_isSome, walk_eq, preorder, List.tail_cons, countAll, List.countP_pos_iff]
  simp only [decide_eq_true_eq]

theorem delete_isSome_iff_contains {root : Node} (notRoot : root.id ≠ id) :
    (root.delete id).isSome = true ↔ root.contains id = true := by
  obtain ⟨element, children⟩ := root
  rw [delete_isSome, contains_iff_count_pos, count_mk, if_neg (show element.id ≠ id from notRoot),
    Nat.zero_add]

end Node

theorem NodeUpdate.run_isSome_iff (change : NodeUpdate) (id : String) (root : Node) :
    (change.run id root).isSome = true ↔ root.contains id = true := by
  rw [run_eq_changeFirst]
  exact Node.changeFirst_isSome_iff id _ root

theorem TreeEdit.on_of_run_eq_none {edit : TreeEdit} {root : Node}
    (nothing : edit.run root = none) : edit.on root = root := by
  rw [on, nothing, Option.getD_none]

namespace NodeCommand

/-- What is asked of a command besides that its edit has something to do: a new node must not take
the id of another, and the root must stay. -/
def Allowed (root : Node) : NodeCommand → Prop
  | insert node _ => root.contains node.id = false
  | update _ _ => True
  | delete id => root.id ≠ id

theorem refusal_eq_none_iff (command : NodeCommand) (root : Node) :
    command.refusal root = none ↔
      ((command.edit root).run root).isSome = true ∧ command.Allowed root := by
  cases command with
  | insert node parentId =>
    have hits := Node.changeFirst_isSome_iff (parentId.getD root.id) (Node.append node) root
    simp only [edit, TreeEdit.run, Node.insertChild, hits, Allowed, refusal]
    cases root.contains (parentId.getD root.id) <;> cases root.contains node.id <;> simp
  | update id change =>
    simp only [edit, TreeEdit.run, change.run_isSome_iff, Allowed, refusal]
    cases root.contains id <;> simp
  | delete id =>
    simp only [edit, TreeEdit.run, Allowed, refusal]
    by_cases atRoot : root.id = id
    · simp [atRoot]
    · rw [Node.delete_isSome_iff_contains id atRoot, if_neg atRoot]
      cases root.contains id <;> simp [atRoot]

theorem reply_eq_committed_iff (command : NodeCommand) (root : Node) :
    command.reply root = .committed ↔
      ((command.edit root).run root).isSome = true ∧ command.Allowed root := by
  rw [← refusal_eq_none_iff, reply]
  cases command.refusal root <;> simp

theorem reply_ne_noCurrentPage (command : NodeCommand) (root : Node) :
    command.reply root ≠ .rejected .noCurrentPage := by
  have other := command.refusal_ne_noCurrentPage root
  rw [reply]
  cases refused : command.refusal root with
  | none => simp
  | some reason => simpa [refused] using other

/-- What a command leaves behind once it is carried out is what its edit makes of the tree. -/
theorem run_of_committed {command : NodeCommand} {root : Node}
    (committed : command.reply root = .committed) :
    (command.edit root).run root = some (command.result root) := by
  have passes := (command.reply_eq_committed_iff root).mp committed
  have unrefused := (command.refusal_eq_none_iff root).mpr passes
  obtain ⟨changed, done⟩ := Option.isSome_iff_exists.mp passes.1
  simp only [result, unrefused, TreeEdit.on, done, Option.getD_some]

end NodeCommand

namespace Session

variable {α : Type}

/-- A session that was run from its start shows a page as soon as a project is open. -/
theorem page?_eq_none_iff (label : String) (actions : List (Action α)) :
    let workspace := ((new label).run actions).1.workspace
    workspace.page? = none ↔ workspace.project = none := by
  intro workspace
  have consistent : workspace.Consistent _ := run_consistent label actions
  cases opened : workspace.project with
  | none => simp [Workspace.page?, opened]
  | some project =>
    obtain ⟨id, member, current⟩ := consistent.shown project opened
    obtain ⟨page, -, -, found⟩ := Project.exists_page? member
    simp [Workspace.page?, opened, current, found]

theorem reply_eq_noCurrentPage_iff (session : Session α) (command : NodeCommand) :
    (session.dispatch command.command).2.1 = .rejected .noCurrentPage ↔
      session.workspace.page? = none := by
  cases shown : session.workspace.page? with
  | none => simp [reply_of_hidden shown]
  | some page => simp [reply_of_shown shown, command.reply_ne_noCurrentPage page.root]

theorem page?_after {session : Session α} {page : Page}
    (shown : session.workspace.page? = some page) (command : NodeCommand) :
    (session.dispatch command.command).1.workspace.page? =
      some { page with root := command.result page.root } := by
  obtain ⟨selectedId, after⟩ := workspace_of_shown shown command
  obtain ⟨project, front, back, displays⟩ := Workspace.displays_of_page? shown
  rw [after, displays.withRoot]
  exact displays.replaceRoot rfl rfl

/-- First on every tree, then for the guards: in a session that was run from its start, a command
is carried out if and only if its edit has something to do and is allowed, and what the edit makes
of the tree is then on display. -/
theorem guards_agree_with_edits :
    (∀ (root : Node) (id : String),
      (∀ change : NodeUpdate, (change.run id root).isSome = true ↔ root.contains id = true) ∧
      (∀ child, (root.insertChild id child).isSome = true ↔ root.contains id = true) ∧
      ((root.delete id).isSome = true ↔ ∃ node ∈ root.walk.tail, node.id = id)) ∧
    (∀ (edit : TreeEdit) (root : Node), edit.run root = none → edit.on root = root) ∧
    ∀ (label : String) (actions : List (Action α)) (command : NodeCommand),
      let session := ((new label).run actions).1
      let reply := (session.dispatch command.command).2.1
      let after := (session.dispatch command.command).1
      (reply = .rejected .noCurrentPage ↔ session.workspace.project = none) ∧
      ∀ project, session.workspace.project = some project →
        ∃ page, session.workspace.page? = some page ∧
          (reply = .committed ↔
            ((command.edit page.root).run page.root).isSome = true ∧ command.Allowed page.root) ∧
          (reply = .committed → ∃ root, (command.edit page.root).run page.root = some root ∧
            after.workspace.page? = some { page with root }) := by
  refine ⟨?_, fun _ _ => TreeEdit.on_of_run_eq_none, ?_⟩
  · intro root id
    exact ⟨fun change => change.run_isSome_iff id root,
      fun child => Node.changeFirst_isSome_iff id (Node.append child) root,
      Node.delete_isSome_iff id root⟩
  · intro label actions command session reply after
    have closed : session.workspace.page? = none ↔ session.workspace.project = none :=
      page?_eq_none_iff label actions
    refine ⟨(session.reply_eq_noCurrentPage_iff command).trans closed, ?_⟩
    intro project opened
    cases shown : session.workspace.page? with
    | none =>
      rw [closed.mp shown] at opened
      cases opened
    | some page =>
      have answer : reply = command.reply page.root := reply_of_shown shown command
      rw [answer]
      refine ⟨page, rfl, command.reply_eq_committed_iff page.root, ?_⟩
      intro committed
      exact ⟨_, NodeCommand.run_of_committed committed, page?_after shown command⟩

end Session

end PageDesigner
