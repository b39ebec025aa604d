import PageDesigner.Component.Name
import PageDesigner.Component.Tag
import PageDesigner.Document.Project

/-!
Component modules: one for each page, with a default-exported function that returns the markup of
the page's tree. They are written line by line. A writer holds the text so far and the depth of the
line to come.
-/

namespace PageDesigner

structure Writer where
  indentWidth : UInt64
  depth : Nat := 0
  output : String := ""

namespace Writer

/-- The width of the indentation is a 64-bit product. -/
def indentation (indentWidth : UInt64) (depth : Nat) : String :=
  String.ofList (List.replicate (indentWidth * UInt64.ofNat depth).toNat ' ')

def line (writer : Writer) (text : String) : Writer :=
  { writer with
    output := writer.output ++ indentation writer.indentWidth writer.depth ++ text ++ "\n" }

def indent (writer : Writer) : Writer := { writer with depth := writer.depth + 1 }

/-- At the margin there is nothing to take back. -/
def dedent (writer : Writer) : Writer := { writer with depth := writer.depth - 1 }

def tag (writer : Writer) (tag : Tag) : Writer := writer.line tag.text

mutual

/-- Writes a node. What lies inside a text or an image is not written. -/
def node (options : Options) (writer : Writer) : Node → Writer
  | ⟨element, children⟩ =>
    match element.kind with
    | .text => writer.tag (element.paragraph options)
    | .image => writer.tag (element.image options)
    | .frame =>
      if children.isEmpty then writer.tag (.emptyBox element.classNames)
      else
        let opened := (writer.tag (.openBox element.classNames)).indent
        (nodes options opened children).dedent.tag .closeBox

def nodes (options : Options) (writer : Writer) : List Node → Writer
  | [] => writer
  | first :: rest => nodes options (node options writer first) rest

end

end Writer

def headerLine (component : String) : String :=
  "export default function " ++ component ++ "() \x7b"

namespace Page

def componentName (options : Options) (page : Page) : String :=
  PageDesigner.componentName page.name options.componentSuffix

/-- The text of the page's module. -/
def compile (options : Options) (page : Page) : String :=
  let start : Writer := { indentWidth := options.indentWidth }
  let opened := ((start.line (headerLine (page.componentName options))).indent.line "return (").indent
  let filled := opened.node options page.root
  ((filled.dedent.line ");").dedent.line "\x7d").output

end Page

structure CompiledPage where
  pageId : String
  componentName : String
  source : String
  deriving DecidableEq, Repr

def Project.compile (options : Options) (project : Project) : List CompiledPage :=
  project.pages.map fun page => ⟨page.id, page.componentName options, page.compile options⟩

end PageDesigner
