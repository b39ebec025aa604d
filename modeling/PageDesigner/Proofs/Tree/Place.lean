import PageDesigner.Proofs.Tree.Edit
import PageDesigner.Tree.Place

/-!
Where the first node with an id lies. A search that finds a node finds it at a place that nothing
with the id comes before, and an edit of the first match is an edit at that place.
-/

namespace PageDesigner

namespace Node

variable {id : String}

theorem id_of_find? {root node : Node} (found : root.find? id = some node) : node.id = id := by
  simpa using List.find?_some found

theorem find?_eq_none_iff {root : Node} : root.find? id = none ↔ root.contains id = false := by
  rw [contains, Option.isSome_eq_false_iff, Option.isNone_iff_eq_none]

theorem findIn_append (left right : List Node) :
    findIn id (left ++ right) = (findIn id left).or (findIn id right) := by
  simp [findIn, preorderAll_append]

theorem findIn_eq_none {nodes : List Node} (absent : ∀ node ∈ nodes, node.contains id = false) :
    findIn id nodes = none := by
  induction nodes with
  | nil => exact findIn_nil id
  | cons node nodes ih =>
    rw [List.forall_mem_cons] at absent
    rw [findIn_cons, find?_eq_none_iff.mpr absent.1, ih absent.2, Option.none_or]

mutual

theorem exists_place : ∀ root node : Node, root.find? id = some node →
    ∃ place : Place, place.Avoids id ∧ root = place.fill node
  | ⟨element, children⟩, node, found => by
    rw [find?_mk] at found
    split at found
    · cases found
      exact ⟨.top, trivial, rfl⟩
    · rename_i different
      obtain ⟨before, after, place, absent, avoids, rfl⟩ := exists_placeIn children node found
      exact ⟨.inside element before after place, ⟨different, absent, avoids⟩, rfl⟩

theorem exists_placeIn : ∀ (nodes : List Node) (node : Node), findIn id nodes = some node →
    ∃ before after, ∃ place : Place, (∀ other ∈ before, other.contains id = false) ∧
      place.Avoids id ∧ nodes = before ++ place.fill node :: after
  | [], node, found => by
    rw [findIn_nil] at found
    cases found
  | first :: nodes, node, found => by
    rw [findIn_cons] at found
    cases here : first.find? id with
    | some hit =>
      rw [here, Option.some_or] at found
      obtain ⟨place, avoids, same⟩ := exists_place first node (here.trans found)
      exact ⟨[], nodes, place, List.forall_mem_nil _, avoids, by rw [List.nil_append, ← same]⟩
    | none =>
      rw [here, Option.none_or] at found
      obtain ⟨before, after, place, absent, avoids, rfl⟩ := exists_placeIn nodes node found
      refine ⟨first :: before, after, place, ?_, avoids, rfl⟩
      exact List.forall_mem_cons.mpr ⟨find?_eq_none_iff.mp here, absent⟩

end

theorem changeFirstIn_append {change : Node → Node} {before : List Node}
    (absent : ∀ node ∈ before, node.contains id = false) (nodes : List Node) :
    changeFirstIn id change (before ++ nodes) =
      (changeFirstIn id change nodes).map (before ++ ·) := by
  induction before with
  | nil =>
    simp
  | cons node before ih =>
    rw [List.forall_mem_cons] at absent
    rw [List.cons_append, changeFirstIn, changeFirst_eq_none absent.1, ih absent.2, Option.map_map]
    rfl

end Node

namespace Place

variable {id : String} {place : Place} {node : Node}

/-- A search that nothing before the place ends goes on in what is at the place. -/
theorem find?_fill_of_found (avoids : place.Avoids id) {hit : Node}
    (found : node.find? id = some hit) : (place.fill node).find? id = some hit := by
  induction place with
  | top => exact found
  | inside element before after rest ih =>
    obtain ⟨different, absent, avoids⟩ := avoids
    rw [fill, Node.find?_mk, if_neg different, Node.findIn_append, Node.findIn_eq_none absent,
      Option.none_or, Node.findIn_cons, ih avoids, Option.some_or]

theorem find?_fill (avoids : place.Avoids id) (same : node.id = id) :
    (place.fill node).find? id = some node := by
  apply find?_fill_of_found avoids
  rw [← same, Node.find?_self]

theorem avoids_of_absent (absent : (place.fill node).count id = 0) :
    place.Avoids id ∧ node.count id = 0 := by
  induction place with
  | top => exact ⟨trivial, absent⟩
  | inside element before after rest ih =>
    rw [fill, Node.count_mk, Node.countAll_append, Node.countAll_cons] at absent
    have different : element.id ≠ id := by
      intro same
      rw [if_pos same] at absent
      omega
    obtain ⟨avoids, none⟩ := ih (by omega)
    exact ⟨⟨different, Node.forall_absent_of_countAll (by omega), avoids⟩, none⟩

/-- What is at the place is changed, and nothing else. -/
theorem changeFirst_fill (avoids : place.Avoids id) (same : node.id = id) (change : Node → Node) :
    Node.changeFirst id change (place.fill node) = some (place.fill (change node)) := by
  induction place with
  | top =>
    obtain ⟨element, children⟩ := node
    exact if_pos same
  | inside element before after rest ih =>
    obtain ⟨different, absent, avoids⟩ := avoids
    rw [fill, Node.changeFirst, if_neg different, Node.changeFirstIn_append absent,
      Node.changeFirstIn, ih avoids]
    rfl

end Place

namespace Node

/-- An edit of the first match is an edit at the place where the search ends. -/
theorem changeFirst_at_place {id : String} {change : Node → Node} {root changed : Node}
    (done : changeFirst id change root = some changed) :
    ∃ (place : Place) (node : Node), place.Avoids id ∧ node.id = id ∧
      root = place.fill node ∧ changed = place.fill (change node) := by
  have present : root.contains id = true := by
    rw [contains_iff_count_pos, ← changeFirst_isSome id change root, done, Option.isSome_some]
  obtain ⟨node, found⟩ := Option.isSome_iff_exists.mp present
  obtain ⟨place, avoids, rfl⟩ := exists_place root node found
  have same := id_of_find? found
  rw [Place.changeFirst_fill avoids same] at done
  exact ⟨place, node, avoids, same, rfl, (Option.some.inj done).symm⟩

end Node

end PageDesigner
