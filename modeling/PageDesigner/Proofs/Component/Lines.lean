import PageDesigner.Component.Lines
import PageDesigner.Component.View

/-!
The text of a module is that of its lines, and the lines go by the component's name and the view of
the page's tree alone: pages that look the same and have the same name give the same text.
-/

namespace PageDesigner

namespace Line

theorem renderAll_nil (indentWidth : UInt64) : renderAll indentWidth [] = "" := rfl

theorem renderAll_cons (indentWidth : UInt64) (line : Line) (lines : List Line) :
    renderAll indentWidth (line :: lines) =
      line.render indentWidth ++ renderAll indentWidth lines := by
  simp [renderAll]

theorem renderAll_append (indentWidth : UInt64) (left right : List Line) :
    renderAll indentWidth (left ++ right) =
      renderAll indentWidth left ++ renderAll indentWidth right := by
  induction left with
  | nil => simp [renderAll_nil]
  | cons line lines ih =>
    rw [List.cons_append, renderAll_cons, renderAll_cons, ih, String.append_assoc]

end Line

namespace Writer

/-- The writer after the lines, back at the depth where it was. -/
def written (writer : Writer) (lines : List Line) : Writer :=
  { writer with output := writer.output ++ Line.renderAll writer.indentWidth lines }

@[simp] theorem written_depth (writer : Writer) (lines : List Line) :
    (writer.written lines).depth = writer.depth := rfl

theorem written_nil (writer : Writer) : writer.written [] = writer := by
  simp [written, Line.renderAll_nil]

theorem written_append (writer : Writer) (left right : List Line) :
    (writer.written left).written right = writer.written (left ++ right) := by
  simp [written, Line.renderAll_append, String.append_assoc]

theorem line_eq_written (writer : Writer) (text : String) :
    writer.line text = writer.written [⟨writer.depth, text⟩] := by
  simp [written, line, Line.renderAll_cons, Line.renderAll_nil, Line.render, String.append_assoc]

theorem tag_eq_written (writer : Writer) (tag : Tag) :
    writer.tag tag = writer.written [⟨writer.depth, tag.text⟩] := writer.line_eq_written tag.text

/-- Lines written one level deeper, between an indent and a dedent. -/
theorem indent_written_dedent (writer : Writer) (lines : List Line) :
    (writer.indent.written lines).dedent = writer.written lines := rfl

mutual

theorem node_eq_written (options : Options) (writer : Writer) : ∀ node : Node,
    writer.node options node = writer.written (node.lines options writer.depth)
  | ⟨element, children⟩ => by
    unfold Writer.node Node.lines
    cases element.kind with
    | text => exact writer.tag_eq_written _
    | image => exact writer.tag_eq_written _
    | frame =>
      cases children with
      | nil => exact writer.tag_eq_written _
      | cons first rest =>
        have opened := writer.tag_eq_written (.openBox element.classNames)
        have inside := nodes_eq_written options (writer.tag (.openBox element.classNames)).indent
          (first :: rest)
        calc
          (Writer.nodes options (writer.tag (.openBox element.classNames)).indent
              (first :: rest)).dedent.tag .closeBox
            = ((writer.tag (.openBox element.classNames)).written
                (Node.linesAll options (writer.depth + 1) (first :: rest))).tag .closeBox := by
              rw [inside, indent_written_dedent]
              rfl
          _ = _ := by
              rw [tag_eq_written, opened, written_append, written_append, written_depth]
              rfl

theorem nodes_eq_written (options : Options) (writer : Writer) : ∀ nodes : List Node,
    writer.nodes options nodes = writer.written (Node.linesAll options writer.depth nodes)
  | [] => by rw [Writer.nodes, Node.linesAll, written_nil]
  | node :: nodes => by
    have first := node_eq_written options writer node
    have rest := nodes_eq_written options (writer.node options node) nodes
    rw [Writer.nodes, Node.linesAll, rest, first, written_append, written_depth]

end

end Writer

namespace View

mutual

/-- The lines that show a view, with the depth of the first one given. -/
def lines (depth : Nat) : View → List Line
  | paragraph classes body => [⟨depth, (Tag.paragraph classes body).text⟩]
  | image source description classes => [⟨depth, (Tag.image source description classes).text⟩]
  | box classes [] => [⟨depth, (Tag.emptyBox classes).text⟩]
  | box classes (first :: rest) =>
    ⟨depth, (Tag.openBox classes).text⟩ :: linesAll (depth + 1) (first :: rest) ++
      [⟨depth, Tag.closeBox.text⟩]

def linesAll (depth : Nat) : List View → List Line
  | [] => []
  | view :: views => view.lines depth ++ linesAll depth views

end

mutual

theorem lines_text (depth : Nat) : ∀ view : View,
    (view.lines depth).map Line.text = view.tags.map Tag.text
  | paragraph _ _ => by rfl
  | image _ _ _ => by rfl
  | box _ [] => by rfl
  | box classes (first :: rest) => by
    have inside := linesAll_text (depth + 1) (first :: rest)
    simp only [lines, tags, List.map_append, List.map_cons, List.map_nil, List.cons_append, inside]

theorem linesAll_text (depth : Nat) : ∀ views : List View,
    (linesAll depth views).map Line.text = (tagsAll views).map Tag.text
  | [] => by rfl
  | view :: views => by
    have first := lines_text depth view
    have rest := linesAll_text depth views
    rw [linesAll, tagsAll, List.map_append, List.map_append, first, rest]

end

end View

namespace Node

mutual

theorem lines_eq_view (options : Options) (depth : Nat) : ∀ node : Node,
    node.lines options depth = (node.view options).lines depth
  | ⟨element, children⟩ => by
    unfold Node.lines Node.view
    cases element.kind with
    | text => rfl
    | image => rfl
    | frame =>
      have inside := linesAll_eq_view options (depth + 1) children
      cases children with
      | nil => rfl
      | cons first rest => simp only [inside, viewAll, View.lines]

theorem linesAll_eq_view (options : Options) (depth : Nat) : ∀ nodes : List Node,
    linesAll options depth nodes = View.linesAll depth (viewAll options nodes)
  | [] => by rfl
  | node :: nodes => by
    have first := lines_eq_view options depth node
    have rest := linesAll_eq_view options depth nodes
    rw [linesAll, viewAll, View.linesAll, first, rest]

end

end Node

namespace Page

/-- The lines of a module that returns the view from a component of the name. -/
def moduleLines (component : String) (view : View) : List Line :=
  ⟨0, headerLine component⟩ :: ⟨1, "return ("⟩ :: view.lines 2 ++ [⟨1, ");"⟩, ⟨0, "\x7d"⟩]

theorem compile_eq_renderAll (options : Options) (page : Page) :
    page.compile options = Line.renderAll options.indentWidth (page.lines options) := by
  let start : Writer := { indentWidth := options.indentWidth }
  let header := start.line (headerLine (page.componentName options))
  let opened := (header.indent.line "return (").indent
  have top : header = start.written [⟨0, headerLine (page.componentName options)⟩] :=
    start.line_eq_written _
  have filled : opened.node options page.root = opened.written (page.root.lines options 2) :=
    opened.node_eq_written options page.root
  have whole : ((opened.node options page.root).dedent.line ");").dedent.line "\x7d" =
      start.written (page.lines options) := by
    rw [filled, Writer.indent_written_dedent]
    simp only [Writer.line_eq_written, Writer.written_append, Writer.indent_written_dedent]
    rw [top, Writer.written_append, List.append_assoc, List.append_assoc]
    rfl
  calc
    page.compile options = (start.written (page.lines options)).output :=
      congrArg Writer.output whole
    _ = Line.renderAll options.indentWidth (page.lines options) := String.empty_append

theorem compile_eq_moduleLines (options : Options) (page : Page) :
    page.compile options = Line.renderAll options.indentWidth
      (moduleLines (page.componentName options) (page.root.view options)) := by
  rw [compile_eq_renderAll, lines, Node.lines_eq_view, moduleLines]

end Page

end PageDesigner
