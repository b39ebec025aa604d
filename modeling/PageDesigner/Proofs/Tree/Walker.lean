import PageDesigner.Proofs.Tree.Order
import PageDesigner.Tree.Walker

/-!
A walker goes through a tree in pre-order, meets every node once and then stops. So the searches
that walk through a tree are told by its pre-order, and what they count by recursion on the tree.
-/

namespace PageDesigner

namespace Walker

/-- The nodes still to come: those on the stack from the top down, each followed by what lies inside
it. -/
def ahead (walker : Walker) : List Node := Node.preorderAll walker.stack.reverse

theorem ahead_start (root : Node) : (start root).ahead = root.preorder := by
  simp [ahead, start, Node.preorderAll]

theorem next_push (pending : List Node) (node : Node) :
    next ⟨pending ++ [node]⟩ = (some node, ⟨pending ++ node.children.reverse⟩) := by
  simp [next]

theorem ahead_push (pending : List Node) (node : Node) :
    ahead ⟨pending ++ [node]⟩ = node :: ahead ⟨pending ++ node.children.reverse⟩ := by
  obtain ⟨element, children⟩ := node
  simp [ahead, Node.preorderAll, Node.preorder, Node.preorderAll_append]

theorem next_eq (walker : Walker) :
    walker.next.1 = walker.ahead.head? ∧ walker.next.2.ahead = walker.ahead.tail := by
  obtain ⟨stack⟩ := walker
  rcases List.eq_nil_or_concat stack with rfl | ⟨pending, node, rfl⟩
  · exact ⟨rfl, rfl⟩
  · rw [List.concat_eq_append, next_push, ahead_push]
    exact ⟨rfl, rfl⟩

theorem answer_eq (walker : Walker) (calls : Nat) : walker.answer calls = walker.ahead[calls]? := by
  induction calls generalizing walker with
  | zero =>
    rw [← List.head?_eq_getElem?]
    exact walker.next_eq.1
  | succ calls ih =>
    calc
      walker.answer (calls + 1) = walker.next.2.answer calls := rfl
      _ = walker.ahead.tail[calls]? := by rw [ih, walker.next_eq.2]
      _ = walker.ahead[calls + 1]? := List.getElem?_tail

end Walker

namespace Node

mutual

theorem length_preorder : ∀ node : Node, node.preorder.length = node.size
  | ⟨element, children⟩ => by
    rw [preorder, size, List.length_cons, length_preorderAll children, Nat.add_comm]

theorem length_preorderAll : ∀ nodes : List Node, (preorderAll nodes).length = sizeAll nodes
  | [] => rfl
  | node :: nodes => by
    rw [preorderAll, sizeAll, List.length_append, length_preorder node, length_preorderAll nodes]

end

mutual

theorem count_eq_occurrences (id : String) : ∀ node : Node, node.count id = node.occurrences id
  | ⟨element, children⟩ => by
    rw [count_mk, occurrences, countAll_eq_occurrencesAll id children]

theorem countAll_eq_occurrencesAll (id : String) :
    ∀ nodes : List Node, countAll id nodes = occurrencesAll id nodes
  | [] => countAll_nil id
  | node :: nodes => by
    rw [countAll_cons, occurrencesAll, count_eq_occurrences id node,
      countAll_eq_occurrencesAll id nodes]

end

/-- The walker answers with the nodes of the pre-order one by one, and with none after as many of
them as the tree has. -/
theorem walker_goes_through_preorder (root : Node) :
    (∀ calls, (Walker.start root).answer calls = root.preorder[calls]?) ∧
    (∀ calls, (Walker.start root).answer calls = none ↔ root.size ≤ calls) ∧
    root.walk = root.preorder ∧
    root.preorder.length = root.size ∧
    (∀ id, root.find? id = root.preorder.find? fun node => node.id = id) ∧
    (∀ id, root.count id = root.occurrences id) ∧
    ∀ id, root.contains id = true ↔ 1 ≤ root.count id := by
  have answers (calls : Nat) : (Walker.start root).answer calls = root.preorder[calls]? := by
    rw [Walker.answer_eq, Walker.ahead_start]
  refine ⟨answers, fun calls => ?_, walk_eq root, length_preorder root, fun id => ?_,
    fun id => count_eq_occurrences id root, contains_iff_count_pos root⟩
  · rw [answers, List.getElem?_eq_none_iff, length_preorder]
  · rw [find?, walk_eq]

end Node
end PageDesigner
