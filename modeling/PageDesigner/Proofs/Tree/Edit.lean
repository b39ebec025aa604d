import PageDesigner.Proofs.Tree.Order
import PageDesigner.Tree.Edit

/-!
What the edits do to a tree as a whole. An edit finds its target if and only if the target's id is
in the tree, keeps the root's id and kind, and accounts for every id: updates leave all counts as
they are, and an insertion adds those of the new child.
-/

namespace PageDesigner.Node

/-- The same element in the sense that its name, looks and content may have changed. -/
def SameRoot (left right : Node) : Prop := left.id = right.id ∧ left.kind = right.kind

section ChangeFirst

variable (id : String) (change : Node → Node)

mutual

theorem changeFirst_isSome : ∀ root : Node,
    (changeFirst id change root).isSome = true ↔ 0 < root.count id
  | ⟨element, children⟩ => by
    have inside := changeFirstIn_isSome children
    by_cases same : element.id = id
    · simp only [changeFirst, count_mk, if_pos same, Option.isSome_some, true_iff]
      omega
    · simp [changeFirst, count_mk, same, inside]

theorem changeFirstIn_isSome : ∀ nodes : List Node,
    (changeFirstIn id change nodes).isSome = true ↔ 0 < countAll id nodes
  | [] => by simp [changeFirstIn]
  | node :: nodes => by
    have first := changeFirst_isSome node
    have rest := changeFirstIn_isSome nodes
    cases changed : changeFirst id change node with
    | none =>
      simp only [changed, Option.isSome_none, Bool.false_eq_true, false_iff] at first
      simp only [changeFirstIn, changed, Option.isSome_map, rest, countAll_cons]
      omega
    | some other =>
      simp only [changed, Option.isSome_some, true_iff] at first
      simp only [changeFirstIn, changed, Option.isSome_some, true_iff, countAll_cons]
      omega

end

variable {id change}

theorem changeFirst_eq_none {root : Node} (absent : root.contains id = false) :
    changeFirst id change root = none := by
  rw [← Option.not_isSome_iff_eq_none, changeFirst_isSome, ← contains_iff_count_pos, absent]
  exact Bool.false_ne_true

theorem changeFirst_sameRoot (keeps : ∀ node, SameRoot (change node) node) {root changed : Node}
    (found : changeFirst id change root = some changed) : SameRoot changed root := by
  obtain ⟨element, children⟩ := root
  simp only [changeFirst] at found
  split at found
  · cases found
    exact keeps _
  · obtain ⟨inside, -, rfl⟩ := Option.map_eq_some_iff.mp found
    exact ⟨rfl, rfl⟩

variable (other : String) (extra : Nat)

mutual

/-- Only the first match changes, so its own gain is the gain of the whole tree. -/
theorem changeFirst_count
    (gain : ∀ node, node.id = id → (change node).count other = node.count other + extra) :
    ∀ root changed : Node, changeFirst id change root = some changed →
      changed.count other = root.count other + extra
  | ⟨element, children⟩, changed, found => by
    simp only [changeFirst] at found
    split at found
    · rename_i same
      cases found
      exact gain ⟨element, children⟩ same
    · obtain ⟨inside, foundInside, rfl⟩ := Option.map_eq_some_iff.mp found
      have grown := changeFirstIn_count gain children inside foundInside
      rw [count_mk, count_mk, grown, Nat.add_assoc]

theorem changeFirstIn_count
    (gain : ∀ node, node.id = id → (change node).count other = node.count other + extra) :
    ∀ nodes changed : List Node, changeFirstIn id change nodes = some changed →
      countAll other changed = countAll other nodes + extra
  | [], changed, found => by simp [changeFirstIn] at found
  | node :: nodes, changed, found => by
    simp only [changeFirstIn] at found
    split at found
    · rename_i first foundFirst
      cases found
      have grown := changeFirst_count gain node first foundFirst
      rw [countAll_cons, countAll_cons, grown]
      omega
    · obtain ⟨rest, foundRest, rfl⟩ := Option.map_eq_some_iff.mp found
      have grown := changeFirstIn_count gain nodes rest foundRest
      rw [countAll_cons, countAll_cons, grown, Nat.add_assoc]

end

section Agreement

variable {id : String} {left right : Node → Node}

mutual

/-- An edit of the first match goes by nothing but what it makes of that match. -/
theorem changeFirst_congr : ∀ root : Node,
    (∀ node, root.find? id = some node → left node = right node) →
      changeFirst id left root = changeFirst id right root
  | ⟨element, children⟩, agree => by
    by_cases same : element.id = id
    · simp only [find?_mk, if_pos same] at agree
      simp only [changeFirst, if_pos same, agree _ rfl]
    · simp only [find?_mk, if_neg same] at agree
      simp only [changeFirst, if_neg same, changeFirstIn_congr children agree]

theorem changeFirstIn_congr : ∀ nodes : List Node,
    (∀ node, findIn id nodes = some node → left node = right node) →
      changeFirstIn id left nodes = changeFirstIn id right nodes
  | [], _ => rfl
  | node :: nodes, agree => by
    simp only [findIn_cons] at agree
    have first : changeFirst id left node = changeFirst id right node := by
      apply changeFirst_congr node
      intro found here
      apply agree
      rw [here, Option.some_or]
    cases changed : changeFirst id right node with
    | some other =>
      rw [changed] at first
      simp only [changeFirstIn, first, changed]
    | none =>
      have absent : node.find? id = none := by
        have missing : ¬0 < node.count id := by
          rw [← changeFirst_isSome id right node, changed]
          exact Bool.false_ne_true
        rwa [← contains_iff_count_pos, contains, Option.not_isSome_iff_eq_none] at missing
      rw [absent, Option.none_or] at agree
      rw [changed] at first
      simp only [changeFirstIn, first, changed, changeFirstIn_congr nodes agree]

end

end Agreement

end ChangeFirst

section Update

theorem patched_sameRoot (node : Node) (patch : ElementPatch) :
    SameRoot (node.patched patch) node :=
  ⟨rfl, rfl⟩

theorem patched_count (node : Node) (patch : ElementPatch) (id : String) :
    (node.patched patch).count id = node.count id := by
  obtain ⟨element, children⟩ := node
  simp only [patched, count_mk, Element.patched]

variable {root changed : Node} {id : String}

theorem exists_update (present : root.contains id = true) (patch : ElementPatch) :
    ∃ updated, root.update id patch = some updated :=
  Option.isSome_iff_exists.mp
    ((changeFirst_isSome id _ root).mpr ((contains_iff_count_pos root id).mp present))

theorem update_sameRoot {patch : ElementPatch} (updated : root.update id patch = some changed) :
    SameRoot changed root :=
  changeFirst_sameRoot (fun node => patched_sameRoot node patch) updated

theorem update_count {patch : ElementPatch} (updated : root.update id patch = some changed)
    (other : String) : changed.count other = root.count other :=
  changeFirst_count other 0 (fun node _ => patched_count node patch other) root changed updated

theorem exists_updateLayout (present : root.contains id = true) (patch : LayoutPatch) :
    ∃ updated, root.updateLayout id patch = some updated := by
  obtain ⟨node, found⟩ := Option.isSome_iff_exists.mp present
  simpa [updateLayout, found] using exists_update present _

theorem exists_updateStyles (present : root.contains id = true) (patch : Styles) :
    ∃ updated, root.updateStyles id patch = some updated := by
  obtain ⟨node, found⟩ := Option.isSome_iff_exists.mp present
  simpa [updateStyles, found] using exists_update present _

/-- Once the old layout is read, the merge is an update of the whole layout. -/
theorem updateLayout_eq_update {patch : LayoutPatch}
    (updated : root.updateLayout id patch = some changed) :
    ∃ whole : ElementPatch, root.update id whole = some changed := by
  obtain ⟨node, -, merged⟩ := Option.bind_eq_some_iff.mp updated
  exact ⟨_, merged⟩

theorem updateStyles_eq_update {patch : Styles}
    (updated : root.updateStyles id patch = some changed) :
    ∃ whole : ElementPatch, root.update id whole = some changed := by
  obtain ⟨node, -, merged⟩ := Option.bind_eq_some_iff.mp updated
  exact ⟨_, merged⟩

/-- What is read for an update is read off the very node that is written. -/
theorem update_of_found (read : Element → ElementPatch) (root : Node) (id : String) :
    (root.find? id).bind (fun node => root.update id (read node.element)) =
      changeFirst id (fun node => node.patched (read node.element)) root := by
  cases found : root.find? id with
  | none =>
    have absent : root.contains id = false := by rw [contains, found, Option.isSome_none]
    rw [Option.bind_none, changeFirst_eq_none absent]
  | some node =>
    rw [Option.bind_some]
    apply changeFirst_congr root
    intro other here
    cases found.symm.trans here
    rfl

end Update

section Insert

variable {root child changed : Node} {parentId : String}

theorem append_sameRoot (child parent : Node) : SameRoot (append child parent) parent := ⟨rfl, rfl⟩

theorem append_count (child parent : Node) (id : String) :
    (append child parent).count id = parent.count id + child.count id := by
  obtain ⟨element, children⟩ := parent
  simp only [append, count_mk, countAll_append, countAll_cons, countAll_nil]
  omega

theorem exists_insertChild (present : root.contains parentId = true) (child : Node) :
    ∃ inserted, root.insertChild parentId child = some inserted :=
  Option.isSome_iff_exists.mp
    ((changeFirst_isSome parentId _ root).mpr ((contains_iff_count_pos root parentId).mp present))

theorem insertChild_sameRoot (inserted : root.insertChild parentId child = some changed) :
    SameRoot changed root :=
  changeFirst_sameRoot (append_sameRoot child) inserted

theorem insertChild_count (inserted : root.insertChild parentId child = some changed)
    (id : String) : changed.count id = root.count id + child.count id :=
  changeFirst_count id _ (fun parent _ => append_count child parent id) root changed inserted

end Insert

section Delete

variable (id : String)

mutual

/-- The root's own id does not count, since the root is never deleted. -/
theorem delete_isSome : ∀ root : Node,
    (delete id root).isSome = true ↔ 0 < countAll id root.children
  | ⟨element, children⟩ => by simpa [delete] using deleteIn_isSome children

theorem deleteIn_isSome : ∀ nodes : List Node,
    (deleteIn id nodes).isSome = true ↔ 0 < countAll id nodes
  | [] => by simp [deleteIn]
  | ⟨element, children⟩ :: nodes => by
    have first := delete_isSome ⟨element, children⟩
    have rest := deleteIn_isSome nodes
    simp only [deleteIn, countAll_cons, count_mk]
    split
    · simp only [Option.isSome_some, true_iff]
      omega
    · simp only [Nat.zero_add, Nat.add_pos_iff_pos_or_pos, ← first, ← rest]
      cases delete id ⟨element, children⟩ <;> cases deleteIn id nodes <;> simp

end

/-- The tree that a deletion leaves, also where it has nothing to do. -/
theorem delete_getD_mk (element : Element) (children : List Node) :
    (delete id ⟨element, children⟩).getD ⟨element, children⟩ =
      ⟨element, (deleteIn id children).getD children⟩ := by
  rw [delete]
  cases deleteIn id children <;> rfl

theorem deleteIn_getD_cons (node : Node) (nodes : List Node) :
    (deleteIn id (node :: nodes)).getD (node :: nodes) =
      if node.element.id = id then (deleteIn id nodes).getD nodes
      else (delete id node).getD node :: (deleteIn id nodes).getD nodes := by
  rw [deleteIn]
  split
  · rfl
  · cases delete id node <;> cases deleteIn id nodes <;> rfl

variable {id}

theorem exists_delete {root removed : Node} (found : root.find? id = some removed)
    (notRoot : root.id ≠ id) : ∃ changed, root.delete id = some changed := by
  have present : 0 < root.count id := by
    rw [← contains_iff_count_pos, contains, found, Option.isSome_some]
  obtain ⟨element, children⟩ := root
  rw [count_mk, if_neg (show element.id ≠ id from notRoot), Nat.zero_add] at present
  exact Option.isSome_iff_exists.mp ((delete_isSome id _).mpr present)

theorem delete_sameRoot {root changed : Node} (deleted : root.delete id = some changed) :
    SameRoot changed root := by
  obtain ⟨element, children⟩ := root
  obtain ⟨left, -, rfl⟩ := Option.map_eq_some_iff.mp deleted
  exact ⟨rfl, rfl⟩

end Delete

end PageDesigner.Node
