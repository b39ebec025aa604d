import PageDesigner.Proofs.Tree.DistinctIds
import PageDesigner.Proofs.Tree.Removal
import PageDesigner.Proofs.Tree.Sweep

/-!
Edits that are independent of each other can be carried out in either order. Their targets may lie
inside one another, be the root or be absent: what counts is only that no two updates or insertions
have one target, and that neither edit finds its target in what the other inserts.
-/

namespace PageDesigner

/-- A change to what a single node is, not to what is inside it. -/
inductive NodeUpdate where
  | parts (patch : ElementPatch)
  | layout (patch : LayoutPatch)
  | styles (patch : Styles)
  deriving DecidableEq, Repr

inductive TreeEdit where
  | update (id : String) (change : NodeUpdate)
  | delete (id : String)
  | insertChild (parentId : String) (child : Node)
  deriving DecidableEq, Repr

namespace NodeUpdate

def run (id : String) : NodeUpdate → Node → Option Node
  | parts patch, root => root.update id patch
  | layout patch, root => root.updateLayout id patch
  | styles patch, root => root.updateStyles id patch

/-- The whole parts that come in place of the element's own. -/
def patch : NodeUpdate → Element → ElementPatch
  | parts patch, _ => patch
  | layout patch, element => { layout := some (element.layout.merge patch) }
  | styles patch, element => { styles := some (element.styles.merge patch) }

theorem run_eq_changeFirst (change : NodeUpdate) (id : String) (root : Node) :
    change.run id root =
      Node.changeFirst id (fun node => node.patched (change.patch node.element)) root := by
  cases change with
  | parts patch => rfl
  | layout patch =>
    exact Node.update_of_found (fun element => { layout := some (element.layout.merge patch) })
      root id
  | styles patch =>
    exact Node.update_of_found (fun element => { styles := some (element.styles.merge patch) })
      root id

theorem run_count {change : NodeUpdate} {id : String} {root changed : Node}
    (done : change.run id root = some changed) (other : String) :
    changed.count other = root.count other := by
  rw [run_eq_changeFirst] at done
  exact Node.changeFirst_count other 0 (fun node _ => Node.patched_count node _ other) root changed
    done

end NodeUpdate

namespace TreeEdit

def run : TreeEdit → Node → Option Node
  | update id change, root => change.run id root
  | delete id, root => root.delete id
  | insertChild parentId child, root => root.insertChild parentId child

/-- Where there is nothing to do, the tree stays as it is. -/
def on (edit : TreeEdit) (root : Node) : Node := (edit.run root).getD root

def Independent : TreeEdit → TreeEdit → Prop
  | update id _, update other _ => id ≠ other
  | update id _, insertChild _ child => child.contains id = false
  | insertChild _ child, update id _ => child.contains id = false
  | delete id, insertChild _ child => child.contains id = false
  | insertChild _ child, delete id => child.contains id = false
  | insertChild parentId child, insertChild otherId other =>
    parentId ≠ otherId ∧ other.contains parentId = false ∧ child.contains otherId = false
  | update _ _, delete _ => True
  | delete _, update _ _ => True
  | delete _, delete _ => True

def target : TreeEdit → String
  | update id _ => id
  | delete id => id
  | insertChild parentId _ => parentId

/-- What the edit puts into the tree. -/
def inserted : TreeEdit → List Node
  | insertChild _ child => [child]
  | _ => []

def sweep : TreeEdit → Sweep
  | update id change =>
    { change := fun element =>
        if element.id = id then element.patched (change.patch element) else element }
  | delete id => Sweep.deleting id
  | insertChild parentId child =>
    { added := fun element => if element.id = parentId then [child] else [] }

theorem sweep_aims (edit : TreeEdit) : edit.sweep.Aims edit.target := by
  cases edit with
  | update id change =>
    refine ⟨?_, fun _ _ _ => rfl, fun _ _ _ => rfl, fun _ _ => rfl, ?_, fun _ _ => rfl⟩
    · intro element
      simp only [sweep]
      split <;> rfl
    · intro element other
      exact if_neg other
  | delete id =>
    refine ⟨fun _ => rfl, ?_, fun _ _ _ => rfl, ?_, fun _ _ => rfl, fun _ _ => rfl⟩
    · intro left right same
      simp only [sweep, Sweep.deleting, same]
    · intro element other
      exact decide_eq_true other
  | insertChild parentId child =>
    refine ⟨fun _ => rfl, fun _ _ _ => rfl, ?_, fun _ _ => rfl, fun _ _ => rfl, ?_⟩
    · intro left right same
      simp only [sweep, same]
    · intro element other
      exact if_neg other

theorem on_eq_sweep (edit : TreeEdit) {root : Node} (once : root.count edit.target ≤ 1) :
    edit.on root = edit.sweep.on root := by
  cases edit with
  | update id change =>
    have aims := sweep_aims (update id change)
    rw [on, run, NodeUpdate.run_eq_changeFirst]
    refine Sweep.changeFirst_getD_eq_on aims (fun _ => rfl) ?_ root once
    intro node same none
    -- There is no second match inside the first one.
    obtain ⟨element, children⟩ := node
    have here : element.id = id := same
    rw [Sweep.on, Sweep.onAll_of_absent aims children none]
    simp only [sweep, if_pos here, List.append_nil, Node.patched]
  | delete id => exact Sweep.delete_getD_eq_on root
  | insertChild parentId child =>
    have aims := sweep_aims (insertChild parentId child)
    refine Sweep.changeFirst_getD_eq_on aims (fun _ => rfl) ?_ root once
    intro node same none
    obtain ⟨element, children⟩ := node
    have here : element.id = parentId := same
    rw [Sweep.on, Sweep.onAll_of_absent aims children none]
    simp only [sweep, if_pos here, Node.append]

theorem on_count_le (edit : TreeEdit) (root : Node) (other : String) :
    (edit.on root).count other ≤ root.count other + Node.countAll other edit.inserted := by
  cases done : edit.run root with
  | none =>
    rw [on, done, Option.getD_none]
    omega
  | some changed =>
    rw [on, done, Option.getD_some]
    cases edit with
    | update id change =>
      rw [NodeUpdate.run_count done other]
      omega
    | delete id =>
      have fewer := Node.delete_count_le done other
      omega
    | insertChild parentId child =>
      rw [Node.insertChild_count done other, inserted, Node.countAll_cons, Node.countAll_nil]
      omega

theorem sweep_added (edit : TreeEdit) (element : Element) :
    edit.sweep.added element = edit.inserted ∧ element.id = edit.target ∨
      edit.sweep.added element = [] := by
  cases edit with
  | update id change => exact Or.inr rfl
  | delete id => exact Or.inr rfl
  | insertChild parentId child =>
    by_cases here : element.id = parentId
    · exact Or.inl ⟨if_pos here, here⟩
    · exact Or.inr (if_neg here)

namespace Independent

variable {first second : TreeEdit}

theorem symm (independent : first.Independent second) : second.Independent first := by
  cases first with
  | update id change =>
    cases second with
    | update other otherChange => exact Ne.symm independent
    | _ => exact independent
  | delete id => cases second <;> exact independent
  | insertChild parentId child =>
    cases second with
    | insertChild otherId other => exact ⟨independent.1.symm, independent.2.2, independent.2.1⟩
    | _ => exact independent

/-- The second edit finds no target in what the first inserts. -/
theorem inserted_avoids (independent : first.Independent second) :
    Node.countAll second.target first.inserted = 0 := by
  cases first with
  | insertChild parentId child =>
    have avoided : child.contains second.target = false := by
      cases second with
      | update id change => exact independent
      | delete id => exact independent
      | insertChild otherId other => exact independent.2.2
    rw [inserted, Node.countAll_cons, Node.countAll_nil, Nat.add_zero]
    exact (Node.contains_eq_false_iff _ _).mp avoided
  | _ => exact Node.countAll_nil _

theorem added_avoids (independent : first.Independent second) (element : Element) :
    Node.countAll second.target (first.sweep.added element) = 0 := by
  rcases first.sweep_added element with ⟨added, -⟩ | nothing
  · rw [added, independent.inserted_avoids]
  · rw [nothing, Node.countAll_nil]

theorem one_adds (independent : first.Independent second) (element : Element) :
    first.sweep.added element = [] ∨ second.sweep.added element = [] := by
  rcases first.sweep_added element with ⟨addedFirst, atFirst⟩ | nothing
  · rcases second.sweep_added element with ⟨addedSecond, atSecond⟩ | nothing
    · cases first with
      | insertChild parentId child =>
        cases second with
        | insertChild otherId other => exact absurd (atFirst.symm.trans atSecond) independent.1
        | _ => exact Or.inr addedSecond
      | _ => exact Or.inl addedFirst
    · exact Or.inr nothing
  · exact Or.inl nothing

theorem change_comm (independent : first.Independent second) (element : Element) :
    second.sweep.change (first.sweep.change element) =
      first.sweep.change (second.sweep.change element) := by
  cases first with
  | update id change =>
    cases second with
    | update other otherChange =>
      by_cases here : element.id = id
      · have away : element.id ≠ other := fun same => independent (here.symm.trans same)
        have changed : (element.patched (change.patch element)).id ≠ other := away
        simp only [sweep, if_pos here, if_neg away, if_neg changed]
      · have unchanged := (sweep_aims (update id change)).change_other
        have sameId := (sweep_aims (update other otherChange)).change_id element
        rw [unchanged element here, unchanged _ (sameId ▸ here)]
    | _ => rfl
  | _ => cases second <;> rfl

theorem sweeps_apart (independent : first.Independent second) :
    Sweep.Apart first.sweep second.sweep :=
  Sweep.Aims.apart first.sweep_aims second.sweep_aims independent.change_comm
    independent.added_avoids independent.symm.added_avoids independent.one_adds

/-- The first edit leaves the second one's target unique. -/
theorem still_once (independent : first.Independent second) {root : Node}
    (distinct : root.DistinctIds) : (first.on root).count second.target ≤ 1 := by
  have once := distinct second.target
  have more := first.on_count_le root second.target
  have avoided := independent.inserted_avoids
  omega

end Independent

/-- Whether or not the targets are in the tree, and wherever they lie in it. -/
theorem independent_edits_commute {root : Node} (distinct : root.DistinctIds)
    {first second : TreeEdit} (independent : first.Independent second) :
    second.on (first.on root) = first.on (second.on root) := by
  calc second.on (first.on root) = second.sweep.on (first.sweep.on root) := by
        rw [second.on_eq_sweep (independent.still_once distinct),
          first.on_eq_sweep (distinct first.target)]
    _ = first.sweep.on (second.sweep.on root) := Sweep.on_comm independent.sweeps_apart root
    _ = first.on (second.on root) := by
        rw [first.on_eq_sweep (independent.symm.still_once distinct),
          second.on_eq_sweep (distinct second.target)]

/-- A node goes away while another comes in further down inside it. -/
theorem deletion_commutes_with_insertion_inside :
    let root : Node := (Node.frame "root" "Root").withChildren
      [(Node.frame "box" "Box").withChildren [.frame "inner" "Inner"], .text "label" "Label"]
    let remove : TreeEdit := .delete "box"
    let insert : TreeEdit := .insertChild "inner" (.text "note" "Note")
    root.DistinctIds ∧ remove.Independent insert ∧
      insert.on (remove.on root) = remove.on (insert.on root) := by
  intro root remove insert
  have distinct : root.DistinctIds := by
    intro id
    simp only [root, Node.withChildren, Node.count_mk, Node.countAll_cons, Node.countAll_nil,
      Node.frame, Node.text, Node.ofKind]
    grind
  have independent : remove.Independent insert := by
    show (Node.text "note" "Note").contains "box" = false
    decide +kernel
  exact ⟨distinct, independent, independent_edits_commute distinct independent⟩

end TreeEdit

end PageDesigner
