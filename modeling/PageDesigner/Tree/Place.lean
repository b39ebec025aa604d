import PageDesigner.Tree.Order

/-!
A place in a tree: the way down to it, together with all that lies beside the way. Filled with a
node it is a whole tree again.
-/

namespace PageDesigner

inductive Place where
  /-- Where the root is. -/
  | top
  /-- A place in one of the nodes inside the element, with the nodes before and after that one. -/
  | inside (element : Element) (before after : List Node) (rest : Place)

namespace Place

def fill : Place → Node → Node
  | top, node => node
  | inside element before after rest, node => ⟨element, before ++ rest.fill node :: after⟩

def depth : Place → Nat
  | top => 0
  | inside _ _ _ rest => rest.depth + 1

/-- None of the nodes that come before the place in pre-order has the id: neither those on the way
nor those on its left. -/
def Avoids (id : String) : Place → Prop
  | top => True
  | inside element before _ rest =>
    element.id ≠ id ∧ (∀ node ∈ before, node.contains id = false) ∧ rest.Avoids id

/-- Only frames are on the way. What lies inside a text or an image is not shown. -/
def Shown : Place → Prop
  | top => True
  | inside element _ _ rest => element.kind = .frame ∧ rest.Shown

end Place
end PageDesigner
