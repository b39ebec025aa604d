import PageDesigner.Component.Module

/-!
The lines of a component module with their depths, told from the page alone, and the text that such
lines make up. `Page.compile` writes the same lines one after the other.
-/

namespace PageDesigner

structure Line where
  depth : Nat
  text : String
  deriving DecidableEq, Repr

namespace Line

def render (indentWidth : UInt64) (line : Line) : String :=
  Writer.indentation indentWidth line.depth ++ line.text ++ "\n"

def renderAll (indentWidth : UInt64) (lines : List Line) : String :=
  String.join (lines.map (render indentWidth))

end Line

namespace Node

mutual

def lines (options : Options) (depth : Nat) : Node → List Line
  | ⟨element, children⟩ =>
    match element.kind with
    | .text => [⟨depth, (element.paragraph options).text⟩]
    | .image => [⟨depth, (element.image options).text⟩]
    | .frame =>
      match children with
      | [] => [⟨depth, (Tag.emptyBox element.classNames).text⟩]
      | first :: rest =>
        ⟨depth, (Tag.openBox element.classNames).text⟩ ::
          linesAll options (depth + 1) (first :: rest) ++ [⟨depth, Tag.closeBox.text⟩]

def linesAll (options : Options) (depth : Nat) : List Node → List Line
  | [] => []
  | node :: nodes => node.lines options depth ++ linesAll options depth nodes

end

/-- The tag that a node begins with. It is the only one unless the node is a box with content. -/
def firstTag (options : Options) (node : Node) : Tag :=
  match node.kind with
  | .text => node.element.paragraph options
  | .image => node.element.image options
  | .frame =>
    if node.children.isEmpty then .emptyBox node.element.classNames
    else .openBox node.element.classNames

def firstLine (options : Options) (depth : Nat) (node : Node) : Line :=
  ⟨depth, (node.firstTag options).text⟩

end Node

def Page.lines (options : Options) (page : Page) : List Line :=
  ⟨0, headerLine (page.componentName options)⟩ :: ⟨1, "return ("⟩ ::
    page.root.lines options 2 ++ [⟨1, ");"⟩, ⟨0, "\x7d"⟩]

end PageDesigner
