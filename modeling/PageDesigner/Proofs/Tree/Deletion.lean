import PageDesigner.Proofs.Tree.Independence
import PageDesigner.Tree.Lineage

/-!
A deletion filters the pre-order of a tree: what is left is every element that neither has the id
nor lies inside one that has it, with the same elements above it as before. The root is left in any
case and does not count as one that has the id.
-/

namespace PageDesigner.Node

variable {id : String}

mutual

/-- The outline is what the lineages tell about depths. -/
theorem outline_eq_lineagesBelow (above : List Element) : ∀ root : Node,
    root.outline above.length = (root.lineagesBelow above).map Lineage.placed
  | ⟨element, children⟩ => by
    have inside := outlineAll_eq_lineagesBelowAll (above ++ [element]) children
    rw [List.length_append, List.length_singleton] at inside
    rw [outline, lineagesBelow, List.map_cons, inside]
    rfl

theorem outlineAll_eq_lineagesBelowAll (above : List Element) : ∀ nodes : List Node,
    outlineAll above.length nodes = (lineagesBelowAll above nodes).map Lineage.placed
  | [] => by rw [outlineAll, lineagesBelowAll, List.map_nil]
  | node :: nodes => by
    have here := outline_eq_lineagesBelow above node
    have rest := outlineAll_eq_lineagesBelowAll above nodes
    rw [outlineAll, lineagesBelowAll, List.map_append, here, rest]

end

theorem outline_eq_lineages (root : Node) : root.outline 0 = root.lineages.map Lineage.placed :=
  root.outline_eq_lineagesBelow []

/-- Some element of a way down, other than the root, has the id. -/
def Struck (id : String) (above : List Element) : Prop := ∃ element ∈ above.tail, element.id = id

theorem struck_concat {above : List Element} (below : above ≠ []) (element : Element) :
    Struck id (above ++ [element]) ↔ Struck id above ∨ element.id = id := by
  obtain ⟨root, others, rfl⟩ := List.exists_cons_of_ne_nil below
  simp [Struck, or_and_right, exists_or]

theorem spared_eq_false_iff {lineage : Lineage} :
    lineage.spared id = false ↔ Struck id (lineage.above ++ [lineage.self]) := by
  simp [Lineage.spared, Struck]

theorem spared_of_not_struck {lineage : Lineage}
    (free : ¬Struck id (lineage.above ++ [lineage.self])) : lineage.spared id = true := by
  rwa [← Bool.not_eq_false, spared_eq_false_iff]

mutual

/-- Neither an element with the id nor anything inside it is spared. -/
theorem filter_lineagesBelow_of_struck : ∀ (root : Node) (above : List Element),
    Struck id (above ++ [root.element]) →
      (root.lineagesBelow above).filter (Lineage.spared id) = []
  | ⟨element, children⟩, above, struck => by
    have here : Lineage.spared id ⟨above, element⟩ = false := spared_eq_false_iff.mpr struck
    rw [lineagesBelow, List.filter_cons_of_neg (Bool.eq_false_iff.mp here)]
    exact filter_lineagesBelowAll_of_struck children (above ++ [element]) (by simp) struck

theorem filter_lineagesBelowAll_of_struck : ∀ (nodes : List Node) (above : List Element),
    above ≠ [] → Struck id above →
      (lineagesBelowAll above nodes).filter (Lineage.spared id) = []
  | [], above, _, _ => by rw [lineagesBelowAll, List.filter_nil]
  | node :: nodes, above, below, struck => by
    have further := (struck_concat below node.element).mpr (Or.inl struck)
    have here := filter_lineagesBelow_of_struck node above further
    have rest := filter_lineagesBelowAll_of_struck nodes above below struck
    rw [lineagesBelowAll, List.filter_append, here, rest, List.append_nil]

end

mutual

/-- Where no element of the way down has the id, the deletion leaves what is spared. -/
theorem lineagesBelow_delete : ∀ (root : Node) (above : List Element),
    ¬Struck id (above ++ [root.element]) →
      ((delete id root).getD root).lineagesBelow above =
        (root.lineagesBelow above).filter (Lineage.spared id)
  | ⟨element, children⟩, above, free => by
    have here : Lineage.spared id ⟨above, element⟩ = true := spared_of_not_struck free
    have inside := lineagesBelowAll_delete children (above ++ [element]) (by simp) free
    rw [delete_getD_mk, lineagesBelow, lineagesBelow, List.filter_cons_of_pos here, inside]

theorem lineagesBelowAll_delete : ∀ (nodes : List Node) (above : List Element),
    above ≠ [] → ¬Struck id above →
      lineagesBelowAll above ((deleteIn id nodes).getD nodes) =
        (lineagesBelowAll above nodes).filter (Lineage.spared id)
  | [], above, _, _ => by rw [deleteIn, Option.getD_none, lineagesBelowAll, List.filter_nil]
  | node :: nodes, above, below, free => by
    have rest := lineagesBelowAll_delete nodes above below free
    have further : Struck id (above ++ [node.element]) ↔ _ := struck_concat below node.element
    rw [deleteIn_getD_cons, lineagesBelowAll, List.filter_append, ← rest]
    by_cases same : node.element.id = id
    · have goes := filter_lineagesBelow_of_struck node above (further.mpr (Or.inr same))
      rw [if_pos same, goes, List.nil_append]
    · have stays := lineagesBelow_delete node above fun struck => (further.mp struck).elim free same
      rw [if_neg same, lineagesBelowAll, stays]

end

theorem lineages_delete (id : String) (root : Node) :
    ((delete id root).getD root).lineages = root.lineages.filter (Lineage.spared id) := by
  apply lineagesBelow_delete
  rintro ⟨element, member, -⟩
  cases member

mutual

theorem delete_count_self : ∀ root : Node,
    ((delete id root).getD root).count id = if root.id = id then 1 else 0
  | ⟨element, children⟩ => by
    have inside := deleteIn_count_self children
    rw [delete_getD_mk, count_mk, inside]
    rfl

theorem deleteIn_count_self : ∀ nodes : List Node,
    countAll id ((deleteIn id nodes).getD nodes) = 0
  | [] => by rw [deleteIn, Option.getD_none, countAll_nil]
  | node :: nodes => by
    have here := delete_count_self node
    have rest := deleteIn_count_self nodes
    rw [deleteIn_getD_cons]
    split
    · exact rest
    · rename_i different
      rw [countAll_cons, here, rest]
      exact if_neg different

end

theorem deleteIn_eq_map_filter (id : String) (nodes : List Node) :
    (deleteIn id nodes).getD nodes =
      (nodes.filter fun node => node.id ≠ id).map fun node => (delete id node).getD node := by
  induction nodes with
  | nil => rfl
  | cons node nodes ih =>
    rw [deleteIn_getD_cons, ih]
    split
    · rename_i goes
      have same : node.id = id := goes
      rw [List.filter_cons_of_neg (by simpa using same)]
    · rename_i stays
      have different : node.id ≠ id := stays
      rw [List.filter_cons_of_pos (by simpa using different), List.map_cons]

end PageDesigner.Node

namespace PageDesigner.TreeEdit

/-- On every tree, whether or not ids repeat in it or nodes with the id lie inside one another. Left
are the spared elements, below the same elements and in the same order as before, and each node that
is left holds those of its children that do not have the id. -/
theorem deletion_filters_preorder (id : String) (root : Node) :
    let result := (delete id).on root
    let left := root.lineages.filter (Lineage.spared id)
    root.outline 0 = root.lineages.map Lineage.placed ∧
    result.outline 0 = left.map Lineage.placed ∧
    result.lineages = left ∧
    result.element = root.element ∧
    result.children = (root.children.filter fun child => child.id ≠ id).map (delete id).on ∧
    result.count id = if root.id = id then 1 else 0 := by
  intro result left
  have lineages : result.lineages = left := root.lineages_delete id
  have shape : result = ⟨root.element, (Node.deleteIn id root.children).getD root.children⟩ := by
    obtain ⟨element, children⟩ := root
    exact Node.delete_getD_mk id element children
  refine ⟨root.outline_eq_lineages, ?_, lineages, ?_, ?_, root.delete_count_self⟩
  · rw [result.outline_eq_lineages, lineages]
  · rw [shape]
  · rw [shape, Node.deleteIn_eq_map_filter]
    rfl

end PageDesigner.TreeEdit
