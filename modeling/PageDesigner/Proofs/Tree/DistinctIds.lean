import PageDesigner.Document.Project
import PageDesigner.Proofs.Tree.Edit

/-!
Trees in which no id occurs twice, and when an insertion keeps them so.
-/

namespace PageDesigner.Node

def DistinctIds (root : Node) : Prop := ∀ id, root.count id ≤ 1

/-- The node can go anywhere into the tree without an id occurring twice. -/
def FreshFor (node root : Node) : Prop :=
  node.DistinctIds ∧ ∀ id, node.contains id = true → root.contains id = false

variable {root changed node : Node}

theorem DistinctIds.of_count_le (distinct : root.DistinctIds)
    (fewer : ∀ id, changed.count id ≤ root.count id) : changed.DistinctIds :=
  fun id => Nat.le_trans (fewer id) (distinct id)

theorem defaultRoot_distinctIds (rootId : String) : (defaultRoot rootId).DistinctIds := by
  intro id
  have single : (defaultRoot rootId).count id = (if rootId = id then 1 else 0) + 0 :=
    count_mk id _ []
  rw [single]
  split <;> omega

theorem insertChild_distinctIds_iff {parentId : String} (distinct : root.DistinctIds)
    (inserted : root.insertChild parentId node = some changed) :
    changed.DistinctIds ↔ node.FreshFor root := by
  have total := insertChild_count inserted
  constructor
  · intro distinctAfter
    refine ⟨fun id => ?_, fun id inside => ?_⟩
    · have once := distinctAfter id
      rw [total] at once
      omega
    · have once := distinctAfter id
      rw [contains_iff_count_pos] at inside
      rw [contains_eq_false_iff]
      rw [total] at once
      omega
  · rintro ⟨distinctInside, apart⟩ id
    rw [total]
    by_cases inside : node.contains id = true
    · have absent := (contains_eq_false_iff root id).mp (apart id inside)
      have once := distinctInside id
      omega
    · rw [Bool.not_eq_true, contains_eq_false_iff] at inside
      have once := distinct id
      omega

end PageDesigner.Node
