import PageDesigner.Document.Layout
import PageDesigner.Document.Styles

/-!
The elements on the canvas. A node is an element together with the nodes inside it.
-/

namespace PageDesigner

/-- What an element is, fixed when it is made. -/
inductive Kind where
  | frame
  | text
  | image
  deriving DecidableEq, Repr

structure Content where
  text : Option String := none
  src : Option String := none
  alt : Option String := none
  deriving DecidableEq, Repr, Inhabited

namespace Content

def ofText (text : String) : Content := { text := some text }

def ofImage (src alt : String) : Content := { src := some src, alt := some alt }

end Content

structure Element where
  id : String
  kind : Kind
  name : String
  layout : Layout := {}
  styles : Styles := {}
  content : Option Content := none
  deriving DecidableEq, Repr

/-- The parts of an element that can be replaced. Its id and kind cannot. -/
structure ElementPatch where
  name : Option String := none
  layout : Option Layout := none
  styles : Option Styles := none
  content : Option Content := none
  deriving DecidableEq, Repr, Inhabited

/-- Each part that the patch gives replaces the element's as a whole. -/
def Element.patched (element : Element) (patch : ElementPatch) : Element :=
  { element with
    name := patch.name.getD element.name
    layout := patch.layout.getD element.layout
    styles := patch.styles.getD element.styles
    content := patch.content.or element.content }

structure Node where
  element : Element
  children : List Node
  deriving Repr

namespace Node

mutual

def decideEq : (left right : Node) → Decidable (left = right)
  | ⟨element, children⟩, ⟨otherElement, otherChildren⟩ =>
    if sameElement : element = otherElement then
      match decideEqAll children otherChildren with
      | .isTrue sameChildren => .isTrue (by rw [sameElement, sameChildren])
      | .isFalse differ => .isFalse fun same => differ (by injection same)
    else .isFalse fun same => sameElement (by injection same)

def decideEqAll : (left right : List Node) → Decidable (left = right)
  | [], [] => .isTrue rfl
  | [], _ :: _ => .isFalse nofun
  | _ :: _, [] => .isFalse nofun
  | node :: nodes, other :: others =>
    match decideEq node other with
    | .isFalse differ => .isFalse fun same => differ (by injection same)
    | .isTrue sameNode =>
      match decideEqAll nodes others with
      | .isTrue sameNodes => .isTrue (by rw [sameNode, sameNodes])
      | .isFalse differ => .isFalse fun same => differ (by injection same)

end

instance : DecidableEq Node := decideEq

def id (node : Node) : String := node.element.id

def kind (node : Node) : Kind := node.element.kind

def name (node : Node) : String := node.element.name

def ofKind (kind : Kind) (id name : String) : Node := ⟨{ id, kind, name }, []⟩

def frame (id name : String) : Node := ofKind .frame id name

def text (id name : String) : Node := ofKind .text id name

def image (id name : String) : Node := ofKind .image id name

def withLayout (node : Node) (layout : Layout) : Node :=
  ⟨{ node.element with layout }, node.children⟩

def withStyles (node : Node) (styles : Styles) : Node :=
  ⟨{ node.element with styles }, node.children⟩

def withContent (node : Node) (content : Content) : Node :=
  ⟨{ node.element with content := some content }, node.children⟩

def withChildren (node : Node) (children : List Node) : Node := ⟨node.element, children⟩

def patched (node : Node) (patch : ElementPatch) : Node :=
  ⟨node.element.patched patch, node.children⟩

end Node
end PageDesigner
