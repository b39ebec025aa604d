import PageDesigner.Document.Node

/-!
The nodes of a tree in pre-order, and the queries that go by this order. `walk` keeps the nodes that
are still to come on a stack; `preorder` is the same order by recursion on the tree.
-/

namespace PageDesigner.Node

mutual

def size : Node → Nat
  | ⟨_, children⟩ => 1 + sizeAll children

def sizeAll : List Node → Nat
  | [] => 0
  | node :: nodes => node.size + sizeAll nodes

end

theorem sizeAll_append (left right : List Node) :
    sizeAll (left ++ right) = sizeAll left + sizeAll right := by
  induction left with
  | nil => simp [sizeAll]
  | cons node nodes ih => simp [sizeAll, ih, Nat.add_assoc]

theorem sizeAll_unfold (node : Node) (pending : List Node) :
    sizeAll (node.children ++ pending) < sizeAll (node :: pending) := by
  cases node
  simp only [sizeAll_append, sizeAll, size]
  omega

/-- Every node on the stack, each followed by the nodes inside it. -/
def visit : List Node → List Node
  | [] => []
  | node :: pending => node :: visit (node.children ++ pending)
termination_by pending => sizeAll pending
decreasing_by exact sizeAll_unfold node pending

def walk (root : Node) : List Node := visit [root]

mutual

def preorder : Node → List Node
  | ⟨element, children⟩ => ⟨element, children⟩ :: preorderAll children

def preorderAll : List Node → List Node
  | [] => []
  | node :: nodes => node.preorder ++ preorderAll nodes

end

mutual

/-- The elements in pre-order with their depths, the root's being `depth`. -/
def outline (depth : Nat) : Node → List (Nat × Element)
  | ⟨element, children⟩ => (depth, element) :: outlineAll (depth + 1) children

def outlineAll (depth : Nat) : List Node → List (Nat × Element)
  | [] => []
  | node :: nodes => node.outline depth ++ outlineAll depth nodes

end

/-- The first node with the id. -/
def find? (root : Node) (id : String) : Option Node :=
  root.walk.find? fun node => node.id = id

def contains (root : Node) (id : String) : Bool := (root.find? id).isSome

def count (root : Node) (id : String) : Nat :=
  root.walk.countP fun node => node.id = id

end PageDesigner.Node
