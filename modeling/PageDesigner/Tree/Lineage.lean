import PageDesigner.Tree.Order

/-!
The elements of a tree in pre-order, each with those above it.
-/

namespace PageDesigner

/-- An element with those that it lies inside of, the root's first. -/
structure Lineage where
  above : List Element
  self : Element
  deriving DecidableEq, Repr

namespace Lineage

/-- The root has depth 0. -/
def placed (lineage : Lineage) : Nat × Element := (lineage.above.length, lineage.self)

/-- Neither the element nor one above it has the id. The root does not count. -/
def spared (id : String) (lineage : Lineage) : Bool :=
  (lineage.above ++ [lineage.self]).tail.all fun element => element.id ≠ id

end Lineage

namespace Node

mutual

def lineagesBelow (above : List Element) : Node → List Lineage
  | ⟨element, children⟩ => ⟨above, element⟩ :: lineagesBelowAll (above ++ [element]) children

def lineagesBelowAll (above : List Element) : List Node → List Lineage
  | [] => []
  | node :: nodes => node.lineagesBelow above ++ lineagesBelowAll above nodes

end

def lineages (root : Node) : List Lineage := root.lineagesBelow []

end Node
end PageDesigner
