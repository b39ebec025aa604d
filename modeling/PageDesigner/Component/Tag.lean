import PageDesigner.Component.Classes
import PageDesigner.Component.Escape
import PageDesigner.Component.Options

/-!
The tags of generated markup, and those that an element gives. A paragraph is one tag together with
its text.
-/

namespace PageDesigner

inductive Tag where
  | paragraph (classes body : String)
  | image (source description classes : String)
  | emptyBox (classes : String)
  | openBox (classes : String)
  | closeBox
  deriving DecidableEq, Repr

namespace Tag

def attributeText (key value : String) : String := key ++ "=\"" ++ Escape.attributeValue value ++ "\""

def text : Tag → String
  | paragraph classes body =>
    "<p " ++ attributeText "className" classes ++ ">" ++ Escape.text body ++ "</p>"
  | image source description classes =>
    "<img " ++ attributeText "src" source ++ " " ++ attributeText "alt" description ++ " " ++
      attributeText "className" classes ++ " />"
  | emptyBox classes => "<div " ++ attributeText "className" classes ++ " />"
  | openBox classes => "<div " ++ attributeText "className" classes ++ ">"
  | closeBox => "</div>"

end Tag

def nonempty? (text : String) : Option String := if text = "" then none else some text

namespace Element

/-- The body of a text element. An empty text counts as none. -/
def body (options : Options) (element : Element) : String :=
  ((element.content.bind Content.text).bind nonempty?).getD options.defaultText

/-- The source of an image element. An empty one counts as none. -/
def source (options : Options) (element : Element) : String :=
  ((element.content.bind Content.src).bind nonempty?).getD options.placeholderSource

def description (element : Element) : String := (element.content.bind Content.alt).getD ""

def paragraph (options : Options) (element : Element) : Tag :=
  .paragraph element.classNames (element.body options)

def image (options : Options) (element : Element) : Tag :=
  .image (element.source options) element.description element.classNames

end Element
end PageDesigner
