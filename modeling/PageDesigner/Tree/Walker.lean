import PageDesigner.Tree.Order

/-!
A walk through a tree that is taken one node at a time, and the number of nodes with an id by
recursion on the tree.
-/

namespace PageDesigner

/-- What a walk has still to go through, each node with all that lies inside it. The next one comes
last. -/
structure Walker where
  stack : List Node

namespace Walker

def start (root : Node) : Walker := ⟨[root]⟩

/-- The next node, if there is one. The nodes inside it go onto the stack, the first of them on
top. -/
def next (walker : Walker) : Option Node × Walker :=
  match walker.stack.getLast? with
  | none => (none, walker)
  | some node => (some node, ⟨walker.stack.dropLast ++ node.children.reverse⟩)

/-- The walker that so many calls of `next` leave. -/
def advance : Nat → Walker → Walker
  | 0, walker => walker
  | calls + 1, walker => advance calls walker.next.2

/-- What `next` answers after so many calls before it. -/
def answer (walker : Walker) (calls : Nat) : Option Node := (walker.advance calls).next.1

end Walker

namespace Node

mutual

def occurrences (id : String) : Node → Nat
  | ⟨element, children⟩ => (if element.id = id then 1 else 0) + occurrencesAll id children

def occurrencesAll (id : String) : List Node → Nat
  | [] => 0
  | node :: nodes => node.occurrences id + occurrencesAll id nodes

end

end Node
end PageDesigner
