import PageDesigner.Component.Tag

/-!
What a node looks like on the rendered page: paragraphs, images and boxes with the classes and texts
that a reader of the generated module finds there.
-/

namespace PageDesigner

inductive View where
  | paragraph (classes body : String)
  | image (source description classes : String)
  | box (classes : String) (content : List View)
  deriving Repr

namespace Node

mutual

/-- What lies inside a text or an image is not part of the view. -/
def view (options : Options) : Node → View
  | ⟨element, children⟩ =>
    match element.kind with
    | .text => .paragraph element.classNames (element.body options)
    | .image => .image (element.source options) element.description element.classNames
    | .frame => .box element.classNames (viewAll options children)

def viewAll (options : Options) : List Node → List View
  | [] => []
  | node :: nodes => node.view options :: viewAll options nodes

end

end Node

namespace View

mutual

/-- The tags that show a view. A box without content is a single tag. -/
def tags : View → List Tag
  | paragraph classes body => [.paragraph classes body]
  | image source description classes => [.image source description classes]
  | box classes [] => [.emptyBox classes]
  | box classes (first :: rest) => .openBox classes :: tagsAll (first :: rest) ++ [.closeBox]

def tagsAll : List View → List Tag
  | [] => []
  | view :: views => view.tags ++ tagsAll views

end

end View
end PageDesigner
