import PageDesigner.Component.Lines

/-!
The writer of component modules with a dedent that fails at the margin instead of staying there, and
the text of a line whose indentation is as wide as the product says.
-/

namespace PageDesigner

/-- A line behind its spaces, as many as its depth times the width, however large that is. -/
def Line.spaced (indentWidth : Nat) (line : Line) : String :=
  String.ofList (List.replicate (indentWidth * line.depth) ' ') ++ line.text ++ "\n"

namespace Writer

/-- Takes back one level. There is none at the margin. -/
def dedent? (writer : Writer) : Option Writer :=
  if writer.depth = 0 then none else some { writer with depth := writer.depth - 1 }

mutual

/-- Writes a node as `Writer.node` does, and fails where a dedent is at the margin. -/
def node? (options : Options) (writer : Writer) : Node → Option Writer
  | ⟨element, children⟩ =>
    match element.kind with
    | .text => some (writer.tag (element.paragraph options))
    | .image => some (writer.tag (element.image options))
    | .frame =>
      if children.isEmpty then some (writer.tag (.emptyBox element.classNames))
      else do
        let filled ← nodes? options (writer.tag (.openBox element.classNames)).indent children
        let closed ← filled.dedent?
        return closed.tag .closeBox

def nodes? (options : Options) (writer : Writer) : List Node → Option Writer
  | [] => some writer
  | first :: rest => do
    let written ← node? options writer first
    nodes? options written rest

end

end Writer

/-- The text of the page's module, if no dedent is at the margin. -/
def Page.compile? (options : Options) (page : Page) : Option String := do
  let start : Writer := { indentWidth := options.indentWidth }
  let opened := ((start.line (headerLine (page.componentName options))).indent.line
    "return (").indent
  let filled ← opened.node? options page.root
  let returned ← filled.dedent?
  let closed ← (returned.line ");").dedent?
  return (closed.line "\x7d").output

end PageDesigner
