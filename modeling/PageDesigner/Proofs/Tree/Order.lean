import PageDesigner.Tree.Order

/-!
The walk with a stack goes through a tree in pre-order. How often an id occurs, and where it occurs
first, is therefore told by recursion on the tree, and an id is in the tree if and only if it occurs
at least once.
-/

namespace PageDesigner.Node

theorem preorderAll_append (left right : List Node) :
    preorderAll (left ++ right) = preorderAll left ++ preorderAll right := by
  induction left with
  | nil => simp [preorderAll]
  | cons node nodes ih => simp [preorderAll, ih]

/-- What is still to come is the pre-order of all the nodes on the stack. -/
theorem visit_eq_preorderAll (pending : List Node) : visit pending = preorderAll pending := by
  fun_induction visit pending with
  | case1 => rfl
  | case2 node pending ih =>
    cases node
    simp only [ih, preorderAll_append, preorderAll, preorder, List.cons_append]

theorem walk_eq (root : Node) : root.walk = root.preorder := by
  simp [walk, visit_eq_preorderAll, preorderAll]

/-- How often the id occurs in all the trees together. -/
def countAll (id : String) (nodes : List Node) : Nat :=
  (preorderAll nodes).countP fun node => node.id = id

@[simp] theorem countAll_nil (id : String) : countAll id [] = 0 := by
  simp [countAll, preorderAll]

@[simp] theorem countAll_cons (id : String) (node : Node) (nodes : List Node) :
    countAll id (node :: nodes) = node.count id + countAll id nodes := by
  simp [countAll, count, walk_eq, preorderAll]

@[simp] theorem countAll_append (id : String) (left right : List Node) :
    countAll id (left ++ right) = countAll id left + countAll id right := by
  simp [countAll, preorderAll_append]

theorem count_mk (id : String) (element : Element) (children : List Node) :
    count ⟨element, children⟩ id = (if element.id = id then 1 else 0) + countAll id children := by
  by_cases same : element.id = id <;>
    simp [count, walk_eq, preorder, countAll, Node.id, same, Nat.add_comm]

/-- The first node with the id in all the trees, one after the other. -/
def findIn (id : String) (nodes : List Node) : Option Node :=
  (preorderAll nodes).find? fun node => node.id = id

@[simp] theorem findIn_nil (id : String) : findIn id [] = none := by
  simp [findIn, preorderAll]

@[simp] theorem findIn_cons (id : String) (node : Node) (nodes : List Node) :
    findIn id (node :: nodes) = (node.find? id).or (findIn id nodes) := by
  simp [findIn, find?, walk_eq, preorderAll, List.find?_append]

theorem find?_mk (id : String) (element : Element) (children : List Node) :
    find? ⟨element, children⟩ id =
      if element.id = id then some ⟨element, children⟩ else findIn id children := by
  by_cases same : element.id = id <;> simp [find?, walk_eq, preorder, findIn, Node.id, same]

theorem contains_iff_count_pos (root : Node) (id : String) :
    root.contains id = true ↔ 0 < root.count id := by
  simp [contains, find?, count, List.countP_pos_iff]

theorem contains_eq_false_iff (root : Node) (id : String) :
    root.contains id = false ↔ root.count id = 0 := by
  have present := contains_iff_count_pos root id
  rw [← Bool.not_eq_true, present]
  omega

theorem forall_absent_of_countAll {nodes : List Node} {id : String}
    (none : countAll id nodes = 0) : ∀ node ∈ nodes, node.contains id = false := by
  induction nodes with
  | nil => exact List.forall_mem_nil _
  | cons node nodes ih =>
    rw [countAll_cons] at none
    rw [List.forall_mem_cons, contains_eq_false_iff]
    exact ⟨by omega, ih (by omega)⟩

theorem find?_self (node : Node) : node.find? node.id = some node := by
  obtain ⟨element, children⟩ := node
  exact (find?_mk element.id element children).trans (if_pos rfl)

theorem preorder_differ {root : Node} {id : String} (absent : root.contains id = false) :
    ∀ node ∈ root.preorder, node.id ≠ id := by
  simpa [contains, find?, walk_eq] using absent

theorem preorderAll_differ {nodes : List Node} {id : String}
    (absent : ∀ node ∈ nodes, node.contains id = false) :
    ∀ node ∈ preorderAll nodes, node.id ≠ id := by
  induction nodes with
  | nil => exact List.forall_mem_nil _
  | cons node nodes ih =>
    rw [List.forall_mem_cons] at absent
    rw [preorderAll, List.forall_mem_append]
    exact ⟨preorder_differ absent.1, ih absent.2⟩

end PageDesigner.Node
