import PageDesigner.Proofs.Tree.Independence
import PageDesigner.Proofs.Tree.Place

/-!
The pre-order of a tree, before and after an update. An update changes the element of the first
match and leaves the place of every node as it is, so ids, kinds and numbers of children stay.
-/

namespace PageDesigner

/-- An element with the number of nodes right inside it. -/
abbrev Entry := Element × Nat

namespace Node

def entry (node : Node) : Entry := (node.element, node.children.length)

/-- The entries of a tree in pre-order. -/
def entries (root : Node) : List Entry := root.walk.map entry

def entriesAll (nodes : List Node) : List Entry := (preorderAll nodes).map entry

theorem entriesAll_cons (node : Node) (nodes : List Node) :
    entriesAll (node :: nodes) = node.entries ++ entriesAll nodes := by
  simp [entriesAll, entries, walk_eq, preorderAll]

theorem entriesAll_append (left right : List Node) :
    entriesAll (left ++ right) = entriesAll left ++ entriesAll right := by
  simp [entriesAll, preorderAll_append]

theorem entries_mk (element : Element) (children : List Node) :
    entries ⟨element, children⟩ = (element, children.length) :: entriesAll children := by
  simp [entries, entriesAll, walk_eq, preorder, entry]

theorem entries_differ {root : Node} {id : String} (absent : root.contains id = false) :
    ∀ entry ∈ root.entries, entry.1.id ≠ id := by
  intro entry member
  obtain ⟨node, inside, rfl⟩ := List.mem_map.mp member
  rw [walk_eq] at inside
  exact preorder_differ absent node inside

theorem entriesAll_differ {nodes : List Node} {id : String}
    (absent : ∀ node ∈ nodes, node.contains id = false) :
    ∀ entry ∈ entriesAll nodes, entry.1.id ≠ id := by
  intro entry member
  obtain ⟨node, inside, rfl⟩ := List.mem_map.mp member
  exact preorderAll_differ absent node inside

/-- What an element is and how many nodes it holds, in pre-order. -/
def skeleton (root : Node) : List (String × Kind × Nat) :=
  root.walk.map fun node => (node.id, node.kind, node.children.length)

theorem skeleton_eq (root : Node) :
    root.skeleton = root.entries.map fun entry => (entry.1.id, entry.1.kind, entry.2) := by
  rw [skeleton, entries, List.map_map]
  rfl

end Node

/-- Whatever is put at a place comes between the same entries, and those before it do not have an id
that the place avoids. -/
theorem Place.entries_fill (place : Place) : ∃ front back,
    (∀ node : Node, (place.fill node).entries = front ++ (node.entries ++ back)) ∧
      ∀ id, place.Avoids id → ∀ entry ∈ front, entry.1.id ≠ id := by
  induction place with
  | top =>
    refine ⟨[], [], ?_, ?_⟩
    · intro node
      rw [fill, List.nil_append, List.append_nil]
    · exact fun _ _ => List.forall_mem_nil _
  | inside element before after rest ih =>
    obtain ⟨front, back, shape, differ⟩ := ih
    refine ⟨(element, before.length + (after.length + 1)) :: Node.entriesAll before ++ front,
      back ++ Node.entriesAll after, ?_, ?_⟩
    · intro node
      simp only [fill, Node.entries_mk, Node.entriesAll_append, Node.entriesAll_cons, shape,
        List.length_append, List.length_cons, List.append_assoc, List.cons_append]
    · rintro id ⟨different, absent, avoids⟩
      rw [List.forall_mem_append, List.forall_mem_cons]
      exact ⟨⟨different, Node.entriesAll_differ absent⟩, differ id avoids⟩

theorem Place.skeleton_fill (place : Place) {element other : Element} (children : List Node)
    (sameId : other.id = element.id) (sameKind : other.kind = element.kind) :
    (place.fill ⟨other, children⟩).skeleton = (place.fill ⟨element, children⟩).skeleton := by
  obtain ⟨front, back, shape, -⟩ := place.entries_fill
  simp only [Node.skeleton_eq, shape, Node.entries_mk, List.map_append, List.map_cons, sameId,
    sameKind]

namespace NodeUpdate

/-- The element after the update: given parts replace its own, and a partial layout and partial
styles are merged into its own. -/
def applied : NodeUpdate → Element → Element
  | parts patch, element => element.patched patch
  | layout patch, element => { element with layout := element.layout.merge patch }
  | styles patch, element => { element with styles := element.styles.merge patch }

/-- What is inside the node stays. -/
def appliedTo (change : NodeUpdate) (node : Node) : Node :=
  ⟨change.applied node.element, node.children⟩

variable {change : NodeUpdate} {id : String} {root changed : Node}

theorem run_eq_applied (change : NodeUpdate) (id : String) (root : Node) :
    change.run id root = Node.changeFirst id change.appliedTo root := by
  rw [run_eq_changeFirst]
  congr 1
  funext node
  cases change with
  | parts patch => rfl
  | layout patch => rfl
  | styles patch => rfl

theorem applied_id (change : NodeUpdate) (element : Element) :
    (change.applied element).id = element.id ∧ (change.applied element).kind = element.kind := by
  cases change with
  | parts patch => exact ⟨rfl, rfl⟩
  | layout patch => exact ⟨rfl, rfl⟩
  | styles patch => exact ⟨rfl, rfl⟩

theorem run_at_place (done : change.run id root = some changed) :
    ∃ (place : Place) (node : Node), place.Avoids id ∧ node.id = id ∧
      root = place.fill node ∧ changed = place.fill (change.appliedTo node) := by
  rw [run_eq_applied] at done
  exact Node.changeFirst_at_place done

theorem run_skeleton (done : change.run id root = some changed) :
    changed.skeleton = root.skeleton := by
  obtain ⟨place, ⟨element, children⟩, -, -, rfl, rfl⟩ := run_at_place done
  obtain ⟨sameId, sameKind⟩ := change.applied_id element
  exact place.skeleton_fill children sameId sameKind

/-- On every tree, whether or not ids repeat in it: the node that the search finds, which is the
first with the id, is replaced by its update, and nothing else changes. -/
theorem update_rewrites_first_match (change : NodeUpdate) (id : String) (root : Node) :
    let result := (TreeEdit.update id change).on root
    (root.find? id = none → change.run id root = none ∧ result = root) ∧
    ∀ node, root.find? id = some node →
      change.run id root = some result ∧
      result.find? id = some ⟨change.applied node.element, node.children⟩ ∧
      ∃ front back, root.entries = front ++ (node.element, node.children.length) :: back ∧
        (∀ entry ∈ front, entry.1.id ≠ id) ∧
        result.entries = front ++ (change.applied node.element, node.children.length) :: back := by
  intro result
  constructor
  · intro absent
    have nothing : change.run id root = none := by
      rw [run_eq_applied, Node.changeFirst_eq_none (Node.find?_eq_none_iff.mp absent)]
    refine ⟨nothing, ?_⟩
    simp only [result, TreeEdit.on, TreeEdit.run, nothing, Option.getD_none]
  · intro node found
    have same := Node.id_of_find? found
    obtain ⟨place, avoids, rfl⟩ := Node.exists_place root node found
    have done : change.run id (place.fill node) = some (place.fill (change.appliedTo node)) := by
      rw [run_eq_applied, Place.changeFirst_fill avoids same]
    have filled : result = place.fill (change.appliedTo node) := by
      simp only [result, TreeEdit.on, TreeEdit.run, done, Option.getD_some]
    have stillSame : (change.appliedTo node).id = id :=
      (change.applied_id node.element).1.trans same
    obtain ⟨front, back, shape, differ⟩ := place.entries_fill
    obtain ⟨element, children⟩ := node
    rw [filled]
    refine ⟨done, Place.find?_fill avoids stillSame, front, Node.entriesAll children ++ back, ?_,
      differ id avoids, ?_⟩
    · rw [shape, Node.entries_mk, List.cons_append]
    · rw [shape, appliedTo, Node.entries_mk, List.cons_append]

/-- Of three nodes with one id, two of them inside one another, only the first gets the width. -/
theorem first_of_triplets_is_resized :
    let inner : Node := .text "twin" "Inner"
    let outer : Node := (Node.frame "twin" "Outer").withChildren [inner]
    let root : Node := (Node.frame "root" "Root").withChildren [.text "note" "Note", outer, inner]
    let change : NodeUpdate := .layout { width := some 40 }
    let result := (TreeEdit.update "twin" change).on root
    root.find? "twin" = some outer ∧
      result.find? "twin" = some ⟨{ outer.element with layout := { width := 40 } }, [inner]⟩ ∧
      ∃ front back, root.entries = front ++ (outer.element, 1) :: back ∧
        (∀ entry ∈ front, entry.1.id ≠ "twin") ∧
        result.entries =
          front ++ ({ outer.element with layout := { width := 40 } }, 1) :: back := by
  intro inner outer root change result
  have found : root.find? "twin" = some outer := by decide +kernel
  obtain ⟨-, seen, entries⟩ := (update_rewrites_first_match change "twin" root).2 outer found
  exact ⟨found, seen, entries⟩

end NodeUpdate

end PageDesigner
