import PageDesigner.Proofs.Tree.FirstMatch

/-!
An insertion splices the outline of the new child, moved down to its depth, into the outline of the
tree: right after the last entry of what lies inside the parent. Nothing is lost and nothing comes
twice, so every id is counted as often as in the tree and in the child together. Where the child's
own id is new to the tree, a search for it ends at the child, and a deletion undoes the insertion.
-/

namespace PageDesigner

/-- An entry of an outline, some levels further down. -/
def lowered (levels : Nat) (placed : Nat × Element) : Nat × Element :=
  (placed.1 + levels, placed.2)

namespace Node

section Outline

mutual

theorem outline_add (depth levels : Nat) : ∀ root : Node,
    root.outline (depth + levels) = (root.outline depth).map (lowered levels)
  | ⟨element, children⟩ => by
    have inside := outlineAll_add (depth + 1) levels children
    rw [Nat.add_right_comm] at inside
    rw [outline, outline, List.map_cons, inside]
    rfl

theorem outlineAll_add (depth levels : Nat) : ∀ nodes : List Node,
    outlineAll (depth + levels) nodes = (outlineAll depth nodes).map (lowered levels)
  | [] => by rw [outlineAll, outlineAll, List.map_nil]
  | node :: nodes => by
    have here := outline_add depth levels node
    have rest := outlineAll_add depth levels nodes
    rw [outlineAll, outlineAll, List.map_append, here, rest]

end

mutual

/-- An outline goes through the elements in the order of the walk. -/
theorem outline_elements (depth : Nat) : ∀ root : Node,
    (root.outline depth).map Prod.snd = root.preorder.map Node.element
  | ⟨element, children⟩ => by
    have inside := outlineAll_elements (depth + 1) children
    rw [outline, preorder, List.map_cons, List.map_cons, inside]

theorem outlineAll_elements (depth : Nat) : ∀ nodes : List Node,
    (outlineAll depth nodes).map Prod.snd = (preorderAll nodes).map Node.element
  | [] => by rw [outlineAll, preorderAll, List.map_nil, List.map_nil]
  | node :: nodes => by
    have here := outline_elements depth node
    have rest := outlineAll_elements depth nodes
    rw [outlineAll, preorderAll, List.map_append, List.map_append, here, rest]

end

theorem outlineAll_append (depth : Nat) (left right : List Node) :
    outlineAll depth (left ++ right) = outlineAll depth left ++ outlineAll depth right := by
  induction left with
  | nil => rw [List.nil_append, outlineAll, List.nil_append]
  | cons node left ih => rw [List.cons_append, outlineAll, outlineAll, ih, List.append_assoc]

theorem outlineAll_differ {id : String} {nodes : List Node}
    (absent : ∀ node ∈ nodes, node.contains id = false) (depth : Nat) :
    ∀ placed ∈ outlineAll depth nodes, placed.2.id ≠ id := by
  intro placed member
  have inside : placed.2 ∈ (preorderAll nodes).map Node.element := by
    rw [← outlineAll_elements depth nodes]
    exact List.mem_map_of_mem member
  obtain ⟨node, inside, same⟩ := List.mem_map.mp inside
  rw [← same]
  exact preorderAll_differ absent node inside

/-- A child that is put last comes after all that was inside the parent, one level below it. -/
theorem outline_append (child parent : Node) (depth : Nat) :
    (append child parent).outline depth = parent.outline depth ++ child.outline (depth + 1) := by
  obtain ⟨element, children⟩ := parent
  rw [append, outline, outline, outlineAll_append, outlineAll, outlineAll, List.append_nil,
    List.cons_append]

end Outline

end Node

namespace Place

/-- Whatever is put at a place, its outline comes between the same entries, at the place's depth. -/
theorem outline_fill (place : Place) (depth : Nat) : ∃ front back,
    (∀ node : Node, (place.fill node).outline depth =
      front ++ (node.outline (depth + place.depth) ++ back)) ∧
      ∀ id, place.Avoids id → ∀ placed ∈ front, placed.2.id ≠ id := by
  induction place generalizing depth with
  | top =>
    refine ⟨[], [], ?_, ?_⟩
    · intro node
      rw [fill, Place.depth, Nat.add_zero, List.nil_append, List.append_nil]
    · intro id avoids
      exact List.forall_mem_nil _
  | inside element before after rest ih =>
    obtain ⟨front, back, shape, differ⟩ := ih (depth + 1)
    refine ⟨(depth, element) :: Node.outlineAll (depth + 1) before ++ front,
      back ++ Node.outlineAll (depth + 1) after, ?_, ?_⟩
    · intro node
      have deeper : depth + (rest.depth + 1) = depth + 1 + rest.depth := by omega
      rw [fill, Place.depth, deeper, Node.outline, Node.outlineAll_append, Node.outlineAll, shape]
      simp only [List.append_assoc, List.cons_append]
    · rintro id ⟨different, absent, avoids⟩
      rw [List.forall_mem_append, List.forall_mem_cons]
      exact ⟨⟨different, Node.outlineAll_differ absent (depth + 1)⟩, differ id avoids⟩

end Place

namespace Node

variable {root child changed : Node} {parentId : String}

/-- The insertion, told by the place of the parent. -/
theorem insertChild_at_place (inserted : root.insertChild parentId child = some changed) :
    ∃ (place : Place) (parent : Node), place.Avoids parentId ∧ parent.id = parentId ∧
      root = place.fill parent ∧ changed = place.fill (append child parent) :=
  changeFirst_at_place inserted

/-- The search for the parent ends at the same place after the insertion as before. -/
theorem insertChild_parent (inserted : root.insertChild parentId child = some changed) :
    ∃ parent, root.find? parentId = some parent ∧
      changed.find? parentId = some ⟨parent.element, parent.children ++ [child]⟩ := by
  obtain ⟨place, parent, avoids, same, rfl, rfl⟩ := insertChild_at_place inserted
  exact ⟨parent, Place.find?_fill avoids same, Place.find?_fill avoids same⟩

theorem insertChild_outline (inserted : root.insertChild parentId child = some changed) :
    ∃ parent depth front back, root.find? parentId = some parent ∧
      root.outline 0 = front ++ (parent.outline depth ++ back) ∧
      (∀ placed ∈ front, placed.2.id ≠ parentId) ∧
      changed.outline 0 = front ++
        (parent.outline depth ++ ((child.outline 0).map (lowered (depth + 1)) ++ back)) := by
  obtain ⟨place, parent, avoids, same, rfl, rfl⟩ := insertChild_at_place inserted
  obtain ⟨front, back, shape, differ⟩ := place.outline_fill 0
  refine ⟨parent, 0 + place.depth, front, back, ?_, ?_, ?_, ?_⟩
  · exact Place.find?_fill avoids same
  · exact shape parent
  · exact differ parentId avoids
  · have below := outline_add 0 (0 + place.depth + 1) child
    rw [Nat.zero_add] at below
    rw [shape, outline_append, ← below, List.append_assoc]

theorem insertChild_distinctIds (inserted : root.insertChild parentId child = some changed) :
    changed.DistinctIds ↔ root.DistinctIds ∧ child.FreshFor root := by
  constructor
  · intro distinct
    have before : root.DistinctIds := by
      apply distinct.of_count_le
      intro id
      have total := insertChild_count inserted id
      omega
    exact ⟨before, (insertChild_distinctIds_iff before inserted).mp distinct⟩
  · rintro ⟨before, fresh⟩
    exact (insertChild_distinctIds_iff before inserted).mpr fresh

section FreshId

theorem append_find? {parent : Node} (absent : parent.count child.id = 0) :
    (append child parent).find? child.id = some child := by
  obtain ⟨element, children⟩ := parent
  rw [count_mk] at absent
  have different : element.id ≠ child.id := by
    intro same
    rw [if_pos same] at absent
    omega
  have inside : ∀ node ∈ children, node.contains child.id = false := by
    apply forall_absent_of_countAll
    omega
  calc
    (append child ⟨element, children⟩).find? child.id = findIn child.id (children ++ [child]) :=
      (find?_mk child.id element (children ++ [child])).trans (if_neg different)
    _ = findIn child.id [child] := by
      rw [findIn_append, findIn_eq_none inside, Option.none_or]
    _ = some child := by rw [findIn_cons, find?_self, Option.some_or]

theorem insertChild_find? (fresh : root.contains child.id = false)
    (inserted : root.insertChild parentId child = some changed) :
    changed.find? child.id = some child := by
  obtain ⟨place, parent, -, -, rfl, rfl⟩ := insertChild_at_place inserted
  rw [contains_eq_false_iff] at fresh
  obtain ⟨avoids, absent⟩ := Place.avoids_of_absent fresh
  exact Place.find?_fill_of_found avoids (append_find? absent)

end FreshId
end Node

/-- A deletion of the child's id takes out the child, with all inside it, and nothing else. -/
theorem Place.deleting_fill_append {place : Place} {child parent : Node}
    (absent : (place.fill parent).count child.id = 0) :
    (Sweep.deleting child.id).on (place.fill (Node.append child parent)) = place.fill parent := by
  have aims : (Sweep.deleting child.id).Aims child.id := TreeEdit.sweep_aims (.delete child.id)
  induction place with
  | top =>
    obtain ⟨element, children⟩ := parent
    rw [fill, Node.count_mk] at absent
    have inside := Sweep.onAll_of_absent aims children (by omega)
    have dropped : (Sweep.deleting child.id).keep child.element = false := by
      simp [Sweep.deleting, Node.id]
    rw [fill, fill, Node.append, Sweep.on, Sweep.onAll_append, inside,
      Sweep.onAll_cons_of_not_keep dropped, Sweep.onAll, List.append_nil]
    exact congrArg _ (List.append_nil children)
  | inside element before after rest ih =>
    rw [fill, Node.count_mk, Node.countAll_append, Node.countAll_cons] at absent
    have restored := ih (by omega)
    have left := Sweep.onAll_of_absent aims before (by omega)
    have right := Sweep.onAll_of_absent aims after (by omega)
    have sameElement :
        (rest.fill parent).element = (rest.fill (Node.append child parent)).element := by
      rw [← restored, Sweep.on_element]
      rfl
    have kept : (Sweep.deleting child.id).keep (rest.fill (Node.append child parent)).element =
        true := by
      rw [← sameElement]
      apply decide_eq_true
      intro same
      have counted : 0 < (rest.fill parent).count child.id := Node.count_pos_of_id same
      omega
    rw [fill, fill, Sweep.on, Sweep.onAll_append, Sweep.onAll_cons_of_keep kept, left, restored,
      right]
    exact congrArg _ (List.append_nil _)

namespace TreeEdit

theorem delete_undoes_insertChild {root child changed : Node} {parentId : String}
    (fresh : root.contains child.id = false)
    (inserted : root.insertChild parentId child = some changed) :
    (delete child.id).on changed = root := by
  obtain ⟨place, parent, -, -, rfl, rfl⟩ := Node.insertChild_at_place inserted
  rw [Node.contains_eq_false_iff] at fresh
  calc
    (delete child.id).on (place.fill (Node.append child parent))
      = (Sweep.deleting child.id).on (place.fill (Node.append child parent)) :=
        Sweep.delete_getD_eq_on _
    _ = place.fill parent := Place.deleting_fill_append fresh

/-- On every tree that has the parent's id, whether or not ids repeat in it or in the child, and
also where the child has the parent's id itself. -/
theorem insertion_splices_outline (child : Node) {root : Node} {parentId : String}
    (present : root.contains parentId = true) :
    let result := (insertChild parentId child).on root
    (∃ parent depth front back, root.find? parentId = some parent ∧
      root.outline 0 = front ++ (parent.outline depth ++ back) ∧
      (∀ placed ∈ front, placed.2.id ≠ parentId) ∧
      result.outline 0 = front ++
        (parent.outline depth ++ ((child.outline 0).map (lowered (depth + 1)) ++ back))) ∧
    (∀ id, result.count id = root.count id + child.count id) ∧
    (result.DistinctIds ↔ root.DistinctIds ∧ child.DistinctIds ∧
      ∀ id, child.contains id = true → root.contains id = false) := by
  intro result
  obtain ⟨changed, inserted⟩ := Node.exists_insertChild present child
  have same : result = changed := by
    simp only [result, on, run, inserted, Option.getD_some]
  rw [same]
  exact ⟨Node.insertChild_outline inserted, Node.insertChild_count inserted,
    Node.insertChild_distinctIds inserted⟩

/-- The parent is the outer one of two boxes with one id, and the new child holds a third. -/
theorem box_spliced_into_outer_twin :
    let inner : Node := (Node.frame "box" "Inner").withChildren [.text "note" "Note"]
    let outer : Node := (Node.frame "box" "Outer").withChildren [inner, .image "photo" "Photo"]
    let root : Node := (Node.frame "root" "Root").withChildren [outer, .text "last" "Last"]
    let child : Node := (Node.frame "card" "Card").withChildren [.frame "box" "Third"]
    let result := (insertChild "box" child).on root
    root.contains "box" = true ∧
      (∃ depth front back, root.outline 0 = front ++ (outer.outline depth ++ back) ∧
        (∀ placed ∈ front, placed.2.id ≠ "box") ∧
        result.outline 0 = front ++
          (outer.outline depth ++ ((child.outline 0).map (lowered (depth + 1)) ++ back))) ∧
      (result.outline 0).map (fun placed => (placed.1, placed.2.name)) =
        [(0, "Root"), (1, "Outer"), (2, "Inner"), (3, "Note"), (2, "Photo"), (2, "Card"),
          (3, "Third"), (1, "Last")] ∧
      result.count "box" = 3 ∧ ¬result.DistinctIds := by
  intro inner outer root child result
  have present : root.contains "box" = true := by decide +kernel
  have found : root.find? "box" = some outer := by decide +kernel
  obtain ⟨⟨parent, depth, front, back, here, before, differ, after⟩, counts, distinct⟩ :=
    insertion_splices_outline child present
  rw [found, Option.some.injEq] at here
  subst here
  refine ⟨present, ⟨depth, front, back, before, differ, after⟩, by decide +kernel, ?_, ?_⟩
  · rw [counts]
    decide +kernel
  · intro unique
    have twice : root.count "box" ≤ 1 := (distinct.mp unique).1 "box"
    exact absurd twice (by decide +kernel)

end TreeEdit
end PageDesigner
