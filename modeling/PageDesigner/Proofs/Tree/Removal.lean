import PageDesigner.Proofs.Tree.Edit

/-!
What a deletion takes out of a tree: the subtrees of all nodes with the id below the root, except
those inside another such node. The first of them is the one that a search for the id finds, and an
id is left as often as it occurs outside all of them.
-/

namespace PageDesigner.Node

mutual

/-- The subtrees that go when the id is deleted, in pre-order. -/
def removed (id : String) : Node → List Node
  | ⟨_, children⟩ => removedIn id children

def removedIn (id : String) : List Node → List Node
  | [] => []
  | node :: nodes =>
    if node.element.id = id then node :: removedIn id nodes else removed id node ++ removedIn id nodes

end

variable (id : String)

mutual

theorem delete_count_add (other : String) : ∀ root : Node,
    ((delete id root).getD root).count other + countAll other (removed id root) = root.count other
  | ⟨element, children⟩ => by
    have inside := deleteIn_count_add other children
    rw [delete_getD_mk, count_mk, count_mk, removed]
    omega

theorem deleteIn_count_add (other : String) : ∀ nodes : List Node,
    countAll other ((deleteIn id nodes).getD nodes) + countAll other (removedIn id nodes) =
      countAll other nodes
  | [] => by simp [deleteIn, removedIn]
  | node :: nodes => by
    have here := delete_count_add other node
    have rest := deleteIn_count_add other nodes
    rw [deleteIn_getD_cons, removedIn]
    by_cases same : node.element.id = id
    · rw [if_pos same, if_pos same, countAll_cons, countAll_cons]
      omega
    · rw [if_neg same, if_neg same, countAll_cons, countAll_cons, countAll_append]
      omega

end

mutual

theorem find?_eq_head?_removed : ∀ root : Node, root.id ≠ id →
    root.find? id = (removed id root).head?
  | ⟨element, children⟩, notRoot => by
    have other : element.id ≠ id := notRoot
    rw [find?_mk, if_neg other, removed, findIn_eq_head?_removedIn children]

theorem findIn_eq_head?_removedIn : ∀ nodes : List Node,
    findIn id nodes = (removedIn id nodes).head?
  | [] => by rw [findIn_nil, removedIn, List.head?_nil]
  | ⟨element, children⟩ :: nodes => by
    have rest := findIn_eq_head?_removedIn nodes
    rw [findIn_cons, removedIn]
    by_cases same : element.id = id
    · rw [find?_mk, if_pos same, if_pos same, Option.some_or, List.head?_cons]
    · rw [find?_eq_head?_removed ⟨element, children⟩ same, if_neg same, rest, List.head?_append]

end

mutual

theorem removed_ids : ∀ root : Node, ∀ node ∈ removed id root, node.id = id
  | ⟨_, children⟩ => removedIn_ids children

theorem removedIn_ids : ∀ nodes : List Node, ∀ node ∈ removedIn id nodes, node.id = id
  | [], node, member => by
    rw [removedIn] at member
    exact absurd member List.not_mem_nil
  | other :: nodes, node, member => by
    rw [removedIn] at member
    split at member
    · rename_i same
      rcases List.mem_cons.mp member with rfl | later
      · exact same
      · exact removedIn_ids nodes node later
    · rcases List.mem_append.mp member with inside | later
      · exact removed_ids other node inside
      · exact removedIn_ids nodes node later

end

variable {id}

/-- The search for a deleted id finds the first of the subtrees that go. -/
theorem removed_eq_cons {root first : Node} (notRoot : root.id ≠ id)
    (found : root.find? id = some first) : ∃ rest, root.removed id = first :: rest := by
  rw [find?_eq_head?_removed id root notRoot] at found
  exact List.head?_eq_some_iff.mp found

theorem delete_count {root left : Node} (deleted : root.delete id = some left) (other : String) :
    left.count other + countAll other (root.removed id) = root.count other := by
  have total := delete_count_add id other root
  rwa [deleted, Option.getD_some] at total

theorem delete_count_le {root left : Node} (deleted : root.delete id = some left) (other : String) :
    left.count other ≤ root.count other := by
  have total := delete_count deleted other
  omega

theorem count_pos_of_id {node : Node} (same : node.id = id) : 0 < node.count id := by
  obtain ⟨element, children⟩ := node
  have here : element.id = id := same
  rw [count_mk, if_pos here]
  omega

/-- Where the deleted id occurs once, only one subtree goes. -/
theorem removed_eq_singleton {root first left : Node} {rest : List Node}
    (deleted : root.delete id = some left) (goes : root.removed id = first :: rest)
    (once : root.count id ≤ 1) : rest = [] := by
  have total := delete_count deleted id
  have named := removed_ids id root
  rw [goes] at named total
  have firstCounts := count_pos_of_id (named first List.mem_cons_self)
  cases rest with
  | nil => rfl
  | cons second others =>
    have secondCounts := count_pos_of_id (named second (by simp))
    rw [countAll_cons, countAll_cons] at total
    omega

end PageDesigner.Node
