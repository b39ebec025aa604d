import PageDesigner.Component.Margin
import PageDesigner.Proofs.Component.Lines

/-!
Writing is balanced: a node's text goes to the end of the output and leaves the depth where it was,
so a dedent always has a level to take back. Where the widths fit into 64 bits, the module of a page
is its lines behind their spaces.
-/

namespace PageDesigner

namespace Line

/-- The 64-bit product is the product where that fits. -/
theorem render_eq_spaced (indentWidth : UInt64) (line : Line)
    (fits : indentWidth.toNat * line.depth < UInt64.size) :
    line.render indentWidth = line.spaced indentWidth.toNat := by
  have width : (indentWidth * UInt64.ofNat line.depth).toNat =
      indentWidth.toNat * line.depth := by
    calc
      (indentWidth * UInt64.ofNat line.depth).toNat
        = indentWidth.toNat * (line.depth % UInt64.size) % UInt64.size := by
          rw [UInt64.toNat_mul, UInt64.toNat_ofNat']
      _ = indentWidth.toNat * line.depth % UInt64.size := Nat.mul_mod_mod _ _ _
      _ = indentWidth.toNat * line.depth := Nat.mod_eq_of_lt fits
  rw [render, spaced, Writer.indentation, width]

theorem renderAll_eq_join_spaced (indentWidth : UInt64) (lines : List Line)
    (fits : ∀ line ∈ lines, indentWidth.toNat * line.depth < UInt64.size) :
    renderAll indentWidth lines = String.join (lines.map (spaced indentWidth.toNat)) := by
  have same : lines.map (render indentWidth) = lines.map (spaced indentWidth.toNat) := by
    apply List.map_congr_left
    intro line member
    exact render_eq_spaced indentWidth line (fits line member)
  rw [renderAll, same]

end Line

namespace Writer

theorem dedent?_eq_some {writer : Writer} (below : 0 < writer.depth) :
    writer.dedent? = some writer.dedent := by
  rw [dedent?, if_neg (Nat.ne_of_gt below), dedent]

theorem node_depth (options : Options) (writer : Writer) (node : Node) :
    (writer.node options node).depth = writer.depth := by
  rw [node_eq_written, written_depth]

theorem nodes_depth (options : Options) (writer : Writer) (nodes : List Node) :
    (writer.nodes options nodes).depth = writer.depth := by
  rw [nodes_eq_written, written_depth]

mutual

theorem node?_eq_some (options : Options) (writer : Writer) : ∀ node : Node,
    writer.node? options node = some (writer.node options node)
  | ⟨element, children⟩ => by
    unfold Writer.node? Writer.node
    cases element.kind with
    | text => rfl
    | image => rfl
    | frame =>
      cases children with
      | nil => rfl
      | cons first rest =>
        let opened := (writer.tag (.openBox element.classNames)).indent
        have inside := nodes?_eq_some options opened (first :: rest)
        have below : 0 < (opened.nodes options (first :: rest)).depth := by
          rw [nodes_depth]
          exact Nat.succ_pos writer.depth
        show (opened.nodes? options (first :: rest) >>= fun filled =>
          filled.dedent? >>= fun closed => some (closed.tag .closeBox)) = _
        rw [inside, Option.bind_eq_bind, Option.bind_some, dedent?_eq_some below]
        rfl

theorem nodes?_eq_some (options : Options) (writer : Writer) : ∀ nodes : List Node,
    writer.nodes? options nodes = some (writer.nodes options nodes)
  | [] => by rfl
  | node :: nodes => by
    have first := node?_eq_some options writer node
    have rest := nodes?_eq_some options (writer.node options node) nodes
    rw [Writer.nodes?, Writer.nodes, first, Option.bind_eq_bind, Option.bind_some, rest]

end

end Writer

namespace Page

theorem compile?_eq_some (options : Options) (page : Page) :
    page.compile? options = some (page.compile options) := by
  let start : Writer := { indentWidth := options.indentWidth }
  let body := (start.line (headerLine (page.componentName options))).indent.line "return ("
  let filled := body.indent.node options page.root
  have inner : 0 < filled.depth := by
    rw [Writer.node_depth]
    exact Nat.succ_pos body.depth
  have outer : 0 < (filled.dedent.line ");").depth := by
    have back : (filled.dedent.line ");").depth = filled.depth - 1 := rfl
    rw [back, Writer.node_depth]
    exact Nat.one_pos
  show (body.indent.node? options page.root >>= fun filled => filled.dedent? >>= fun returned =>
    (returned.line ");").dedent? >>= fun closed => some (closed.line "\x7d").output) = _
  rw [Writer.node?_eq_some, Option.bind_eq_bind, Option.bind_some, Writer.dedent?_eq_some inner,
    Option.bind_some, Writer.dedent?_eq_some outer]
  rfl

/-- The module of a page is its lines, each behind as many spaces as the product of its depth and
the width, where these products fit into 64 bits. A node's lines go to the end of the output from
any depth and leave it as it was, and no dedent is ever at the margin. -/
theorem compiled_text_is_its_lines (options : Options) (page : Page) :
    ((∀ line ∈ page.lines options, options.indentWidth.toNat * line.depth < UInt64.size) →
      page.compile options =
        String.join ((page.lines options).map (Line.spaced options.indentWidth.toNat))) ∧
    (∀ (writer : Writer) (node : Node),
      writer.node options node =
        { writer with
          output := writer.output ++
            Line.renderAll writer.indentWidth (node.lines options writer.depth) } ∧
      writer.node? options node = some (writer.node options node)) ∧
    page.compile? options = some (page.compile options) := by
  refine ⟨?_, ?_, page.compile?_eq_some options⟩
  · intro fits
    calc
      page.compile options = Line.renderAll options.indentWidth (page.lines options) :=
        page.compile_eq_renderAll options
      _ = String.join ((page.lines options).map (Line.spaced options.indentWidth.toNat)) :=
        Line.renderAll_eq_join_spaced options.indentWidth (page.lines options) fits
  · intro writer node
    exact ⟨writer.node_eq_written options node, Writer.node?_eq_some options writer node⟩

/-- Two boxes, one inside the other, with a text and an image on either side of the inner one. -/
theorem nested_boxes_at_width_three :
    let options : Options := { indentWidth := 3 }
    let inner : Node := (Node.frame "3" "Inner").withChildren [Node.frame "4" "Empty"]
    let root : Node := (Node.frame "1" "Root").withChildren
      [(Node.text "2" "Label").withContent (.ofText "Hi"), inner, .image "5" "Photo"]
    let page : Page := ⟨"0", "home", root⟩
    (∀ line ∈ page.lines options, options.indentWidth.toNat * line.depth < UInt64.size) ∧
    page.compile options =
      "export default function HomePage() \x7b\n" ++
      "   return (\n" ++
      "      <div className=\"\">\n" ++
      "         <p className=\"\">Hi</p>\n" ++
      "         <div className=\"\">\n" ++
      "            <div className=\"\" />\n" ++
      "         </div>\n" ++
      "         <img src=\"/placeholder.jpg\" alt=\"\" className=\"\" />\n" ++
      "      </div>\n" ++
      "   );\n" ++
      "\x7d\n" := by
  intro options inner root page
  have fits : ∀ line ∈ page.lines options,
      options.indentWidth.toNat * line.depth < UInt64.size := by decide +kernel
  refine ⟨fits, ?_⟩
  rw [(compiled_text_is_its_lines options page).1 fits]
  decide +kernel

end Page

end PageDesigner
