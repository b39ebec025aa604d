import PageDesigner.Proofs.Tree.Edit

/-!
One pass over a whole tree that treats every node alike. An edit stops at its first match, but where
its target occurs at most once it comes to the same as a sweep, and two sweeps commute as soon as
neither takes notice of what the other does.
-/

namespace PageDesigner

/-- Leaves out nodes below the root, with all inside them, changes the elements of the others, and
puts new nodes last inside them. -/
structure Sweep where
  keep : Element → Bool := fun _ => true
  change : Element → Element := fun element => element
  added : Element → List Node := fun _ => []

namespace Sweep

mutual

def on (sweep : Sweep) : Node → Node
  | ⟨element, children⟩ => ⟨sweep.change element, sweep.onAll children ++ sweep.added element⟩

def onAll (sweep : Sweep) : List Node → List Node
  | [] => []
  | node :: nodes =>
    if sweep.keep node.element then sweep.on node :: sweep.onAll nodes else sweep.onAll nodes

end

/-- The sweep concerns elements with the id only, and tells elements apart by their ids. -/
structure Aims (sweep : Sweep) (id : String) : Prop where
  change_id : ∀ element, (sweep.change element).id = element.id
  keep_congr : ∀ left right : Element, left.id = right.id → sweep.keep left = sweep.keep right
  added_congr : ∀ left right : Element, left.id = right.id → sweep.added left = sweep.added right
  keep_other : ∀ element : Element, element.id ≠ id → sweep.keep element = true
  change_other : ∀ element : Element, element.id ≠ id → sweep.change element = element
  added_other : ∀ element : Element, element.id ≠ id → sweep.added element = []

variable {first second sweep : Sweep} {id : String}

theorem on_element (sweep : Sweep) (node : Node) :
    (sweep.on node).element = sweep.change node.element := by
  obtain ⟨element, children⟩ := node
  rw [on]

theorem onAll_cons_of_keep {node : Node} (kept : sweep.keep node.element = true)
    (nodes : List Node) : sweep.onAll (node :: nodes) = sweep.on node :: sweep.onAll nodes := by
  rw [onAll, if_pos kept]

theorem onAll_cons_of_not_keep {node : Node} (dropped : sweep.keep node.element = false)
    (nodes : List Node) : sweep.onAll (node :: nodes) = sweep.onAll nodes := by
  rw [onAll, dropped]
  rfl

theorem onAll_append (sweep : Sweep) (left right : List Node) :
    sweep.onAll (left ++ right) = sweep.onAll left ++ sweep.onAll right := by
  induction left with
  | nil => rw [List.nil_append, onAll, List.nil_append]
  | cons node nodes ih =>
    rw [List.cons_append]
    cases kept : sweep.keep node.element with
    | true => rw [onAll_cons_of_keep kept, onAll_cons_of_keep kept, ih, List.cons_append]
    | false => rw [onAll_cons_of_not_keep kept, onAll_cons_of_not_keep kept, ih]

mutual

theorem on_of_absent (aims : sweep.Aims id) :
    ∀ node : Node, node.count id = 0 → sweep.on node = node
  | ⟨element, children⟩, absent => by
    rw [Node.count_mk] at absent
    have other : element.id ≠ id := by
      intro same
      rw [if_pos same] at absent
      omega
    have inside := onAll_of_absent aims children (by omega)
    rw [on, inside, aims.change_other element other, aims.added_other element other,
      List.append_nil]

theorem onAll_of_absent (aims : sweep.Aims id) :
    ∀ nodes : List Node, Node.countAll id nodes = 0 → sweep.onAll nodes = nodes
  | [], _ => rfl
  | ⟨element, children⟩ :: nodes, absent => by
    rw [Node.countAll_cons] at absent
    have here := on_of_absent aims ⟨element, children⟩ (by omega)
    have rest := onAll_of_absent aims nodes (by omega)
    have other : element.id ≠ id := by
      intro same
      rw [Node.count_mk, if_pos same] at absent
      omega
    rw [onAll_cons_of_keep (aims.keep_other element other), here, rest]

end

/-- Where the changes of elements commute and no node is put next to another, what is left to ask is
that neither sweep finds its target among the nodes that the other puts in. -/
structure Apart (first second : Sweep) : Prop where
  change_comm : ∀ element,
    second.change (first.change element) = first.change (second.change element)
  keep_second : ∀ element, second.keep (first.change element) = second.keep element
  keep_first : ∀ element, first.keep (second.change element) = first.keep element
  added_second : ∀ element, second.added (first.change element) = second.added element
  added_first : ∀ element, first.added (second.change element) = first.added element
  spares_first : ∀ element, second.onAll (first.added element) = first.added element
  spares_second : ∀ element, first.onAll (second.added element) = second.added element
  one_adds : ∀ element, first.added element = [] ∨ second.added element = []

mutual

theorem on_comm (apart : Apart first second) :
    ∀ node : Node, second.on (first.on node) = first.on (second.on node)
  | ⟨element, children⟩ => by
    have inside := onAll_comm apart children
    have addings : first.added element ++ second.added element =
        second.added element ++ first.added element := by
      rcases apart.one_adds element with none | none <;> rw [none, List.append_nil, List.nil_append]
    simp only [on, onAll_append, apart.change_comm, apart.added_second, apart.added_first,
      apart.spares_first, apart.spares_second, inside, List.append_assoc, addings]

theorem onAll_comm (apart : Apart first second) :
    ∀ nodes : List Node, second.onAll (first.onAll nodes) = first.onAll (second.onAll nodes)
  | [] => rfl
  | node :: nodes => by
    have here := on_comm apart node
    have rest := onAll_comm apart nodes
    have later := apart.keep_second node.element
    have sooner := apart.keep_first node.element
    rw [← on_element] at later sooner
    cases keptFirst : first.keep node.element with
    | true =>
      cases keptSecond : second.keep node.element with
      | true =>
        rw [keptFirst] at sooner
        rw [keptSecond] at later
        rw [onAll_cons_of_keep keptFirst, onAll_cons_of_keep later, onAll_cons_of_keep keptSecond,
          onAll_cons_of_keep sooner, here, rest]
      | false =>
        rw [keptSecond] at later
        rw [onAll_cons_of_keep keptFirst, onAll_cons_of_not_keep later,
          onAll_cons_of_not_keep keptSecond, rest]
    | false =>
      rw [keptFirst] at sooner
      cases keptSecond : second.keep node.element with
      | true =>
        rw [onAll_cons_of_not_keep keptFirst, onAll_cons_of_keep keptSecond,
          onAll_cons_of_not_keep sooner, rest]
      | false =>
        rw [onAll_cons_of_not_keep keptFirst, onAll_cons_of_not_keep keptSecond, rest]

end

/-- Sweeps that tell elements apart by their ids do not notice changes that leave the ids. -/
theorem Aims.apart {firstId secondId : String} (firstAims : first.Aims firstId)
    (secondAims : second.Aims secondId)
    (changes : ∀ element, second.change (first.change element) =
      first.change (second.change element))
    (firstAvoids : ∀ element, Node.countAll secondId (first.added element) = 0)
    (secondAvoids : ∀ element, Node.countAll firstId (second.added element) = 0)
    (oneAdds : ∀ element, first.added element = [] ∨ second.added element = []) :
    Apart first second where
  change_comm := changes
  keep_second := fun element => secondAims.keep_congr _ _ (firstAims.change_id element)
  keep_first := fun element => firstAims.keep_congr _ _ (secondAims.change_id element)
  added_second := fun element => secondAims.added_congr _ _ (firstAims.change_id element)
  added_first := fun element => firstAims.added_congr _ _ (secondAims.change_id element)
  spares_first := fun element => onAll_of_absent secondAims _ (firstAvoids element)
  spares_second := fun element => onAll_of_absent firstAims _ (secondAvoids element)
  one_adds := oneAdds

section Edits

variable {change : Node → Node}

mutual

/-- Past its first match an edit leaves all as it is, and so does the sweep, since there is no other
match. -/
theorem changeFirst_getD_eq_on (aims : sweep.Aims id) (keeps : ∀ element, sweep.keep element = true)
    (agrees : ∀ node : Node, node.id = id → Node.countAll id node.children = 0 →
      change node = sweep.on node) :
    ∀ root : Node, root.count id ≤ 1 →
      (Node.changeFirst id change root).getD root = sweep.on root
  | ⟨element, children⟩, once => by
    rw [Node.count_mk] at once
    by_cases same : element.id = id
    · rw [if_pos same] at once
      rw [Node.changeFirst, if_pos same, Option.getD_some]
      exact agrees ⟨element, children⟩ same (by simp only; omega)
    · rw [if_neg same] at once
      have inside := changeFirstIn_getD_eq_onAll aims keeps agrees children (by omega)
      rw [Node.changeFirst, if_neg same, on, aims.change_other element same,
        aims.added_other element same, List.append_nil, ← inside]
      cases Node.changeFirstIn id change children <;> rfl

theorem changeFirstIn_getD_eq_onAll (aims : sweep.Aims id)
    (keeps : ∀ element, sweep.keep element = true)
    (agrees : ∀ node : Node, node.id = id → Node.countAll id node.children = 0 →
      change node = sweep.on node) :
    ∀ nodes : List Node, Node.countAll id nodes ≤ 1 →
      (Node.changeFirstIn id change nodes).getD nodes = sweep.onAll nodes
  | [], _ => rfl
  | node :: nodes, once => by
    rw [Node.countAll_cons] at once
    have here := changeFirst_getD_eq_on aims keeps agrees node (by omega)
    have rest := changeFirstIn_getD_eq_onAll aims keeps agrees nodes (by omega)
    rw [onAll_cons_of_keep (keeps node.element)]
    cases changed : Node.changeFirst id change node with
    | none =>
      rw [changed, Option.getD_none] at here
      rw [Node.changeFirstIn, changed, ← here, ← rest]
      cases Node.changeFirstIn id change nodes <;> rfl
    | some other =>
      have present : 0 < node.count id := by
        rw [← Node.changeFirst_isSome id change node, changed, Option.isSome_some]
      have noMore := onAll_of_absent aims nodes (by omega)
      rw [changed, Option.getD_some] at here
      rw [Node.changeFirstIn, changed, Option.getD_some, here, noMore]

end

/-- A deletion is a sweep on every tree. -/
def deleting (id : String) : Sweep where
  keep := fun element => decide (element.id ≠ id)

mutual

theorem delete_getD_eq_on : ∀ root : Node,
    (Node.delete id root).getD root = (deleting id).on root
  | ⟨element, children⟩ => by
    have inside := deleteIn_getD_eq_onAll children
    rw [Node.delete_getD_mk, inside, on]
    simp only [deleting, List.append_nil]

theorem deleteIn_getD_eq_onAll : ∀ nodes : List Node,
    (Node.deleteIn id nodes).getD nodes = (deleting id).onAll nodes
  | [] => rfl
  | node :: nodes => by
    have here := delete_getD_eq_on node
    have rest := deleteIn_getD_eq_onAll nodes
    by_cases same : node.element.id = id
    · have dropped : (deleting id).keep node.element = false := by simp [deleting, same]
      rw [onAll_cons_of_not_keep dropped, Node.deleteIn_getD_cons, if_pos same, rest]
    · have kept : (deleting id).keep node.element = true := by simp [deleting, same]
      rw [onAll_cons_of_keep kept, Node.deleteIn_getD_cons, if_neg same, here, rest]

end

end Edits

end Sweep
end PageDesigner
