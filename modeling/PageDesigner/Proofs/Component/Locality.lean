import PageDesigner.Proofs.Component.Lines
import PageDesigner.Proofs.Editor.NodeCommand
import PageDesigner.Proofs.Editor.Selection
import PageDesigner.Proofs.Tree.FirstMatch

/-!
How far an update of a node reaches into the generated code. The lines of a node stand together
between those of what is beside it, and an update leaves all of them but the first. A node inside a
text or an image has no lines at all.
-/

namespace PageDesigner

namespace Node

theorem linesAll_append (options : Options) (depth : Nat) (left right : List Node) :
    linesAll options depth (left ++ right) =
      linesAll options depth left ++ linesAll options depth right := by
  induction left with
  | nil => rw [List.nil_append, linesAll, List.nil_append]
  | cons node left ih => rw [List.cons_append, linesAll, linesAll, ih, List.append_assoc]

section Kinds

variable {element : Element} {children : List Node}

theorem lines_of_text (text : element.kind = .text) (options : Options) (depth : Nat) :
    lines options depth ⟨element, children⟩ = [⟨depth, (element.paragraph options).text⟩] := by
  unfold lines
  rw [text]

theorem lines_of_image (image : element.kind = .image) (options : Options) (depth : Nat) :
    lines options depth ⟨element, children⟩ = [⟨depth, (element.image options).text⟩] := by
  unfold lines
  rw [image]

theorem lines_of_box (frame : element.kind = .frame) (filled : children ≠ []) (options : Options)
    (depth : Nat) :
    lines options depth ⟨element, children⟩ =
      ⟨depth, (Tag.openBox element.classNames).text⟩ ::
        linesAll options (depth + 1) children ++ [⟨depth, Tag.closeBox.text⟩] := by
  obtain ⟨first, rest, rfl⟩ := List.exists_cons_of_ne_nil filled
  rw [lines, frame]

end Kinds

/-- The kind and what is inside decide about all lines but the first. -/
theorem lines_eq_cons (options : Options) (depth : Nat) (kind : Kind) (children : List Node) :
    ∃ later, ∀ element : Element, element.kind = kind →
      lines options depth ⟨element, children⟩ =
        firstLine options depth ⟨element, children⟩ :: later := by
  cases kind with
  | text =>
    refine ⟨[], ?_⟩
    intro element same
    rw [lines_of_text same, firstLine, firstTag, Node.kind, same]
  | image =>
    refine ⟨[], ?_⟩
    intro element same
    rw [lines_of_image same, firstLine, firstTag, Node.kind, same]
  | frame =>
    cases children with
    | nil =>
      refine ⟨[], ?_⟩
      intro element same
      rw [lines, firstLine, firstTag, Node.kind, same]
      rfl
    | cons first rest =>
      refine ⟨linesAll options (depth + 1) (first :: rest) ++ [⟨depth, Tag.closeBox.text⟩], ?_⟩
      intro element same
      rw [lines_of_box same (List.cons_ne_nil first rest), firstLine, firstTag, Node.kind, same]
      rfl

end Node

namespace Place

variable {place : Place}

/-- Whatever is put at a place that is shown, its lines come between the same ones. -/
theorem lines_fill (options : Options) (shown : place.Shown) (depth : Nat) : ∃ front back,
    ∀ node : Node, (place.fill node).lines options depth =
      front ++ (node.lines options (depth + place.depth) ++ back) := by
  induction place generalizing depth with
  | top =>
    refine ⟨[], [], ?_⟩
    intro node
    rw [fill, Place.depth, Nat.add_zero, List.nil_append, List.append_nil]
  | inside element before after rest ih =>
    obtain ⟨frame, shown⟩ := shown
    obtain ⟨front, back, shape⟩ := ih shown (depth + 1)
    refine ⟨⟨depth, (Tag.openBox element.classNames).text⟩ ::
        Node.linesAll options (depth + 1) before ++ front,
      back ++ Node.linesAll options (depth + 1) after ++ [⟨depth, Tag.closeBox.text⟩], ?_⟩
    intro node
    have filled : before ++ rest.fill node :: after ≠ [] := by simp
    have deeper : depth + (rest.depth + 1) = depth + 1 + rest.depth := by omega
    rw [fill, Place.depth, Node.lines_of_box frame filled, Node.linesAll_append, Node.linesAll,
      shape, deeper]
    simp only [List.append_assoc, List.cons_append]

theorem lines_fill_of_hidden (options : Options) (hidden : ¬place.Shown) (depth : Nat)
    (left right : Node) :
    (place.fill left).lines options depth = (place.fill right).lines options depth := by
  induction place generalizing depth with
  | top => exact absurd trivial hidden
  | inside element before after rest ih =>
    rw [fill, fill]
    cases kind : element.kind with
    | text => rw [Node.lines_of_text kind, Node.lines_of_text kind]
    | image => rw [Node.lines_of_image kind, Node.lines_of_image kind]
    | frame =>
      have hidden : ¬rest.Shown := fun shown => hidden ⟨kind, shown⟩
      rw [Node.lines_of_box kind (by simp), Node.lines_of_box kind (by simp), Node.linesAll_append,
        Node.linesAll_append, Node.linesAll, Node.linesAll, ih hidden]

end Place

/-- All but the name and the position is the same. -/
def Element.LooksLike (element other : Element) : Prop :=
  ∃ name x y, other = { element with name, layout := { element.layout with x, y } }

theorem Node.firstLine_of_looksLike {element other : Element} (same : element.LooksLike other)
    (options : Options) (depth : Nat) (children : List Node) :
    firstLine options depth ⟨other, children⟩ = firstLine options depth ⟨element, children⟩ := by
  obtain ⟨name, x, y, rfl⟩ := same
  rfl

/-- The page with the node at a place of its tree. -/
def Page.withNode (page : Page) (place : Place) (node : Node) : Page :=
  { page with root := place.fill node }

namespace Page

variable {place : Place}

theorem lines_withNode (options : Options) (page : Page) (shown : place.Shown) : ∃ front back,
    ∀ node : Node, (page.withNode place node).lines options =
      front ++ (node.lines options (place.depth + 2) ++ back) := by
  obtain ⟨front, back, shape⟩ := place.lines_fill options shown 2
  refine ⟨⟨0, headerLine (page.componentName options)⟩ :: ⟨1, "return ("⟩ :: front,
    back ++ [⟨1, ");"⟩, ⟨0, "\x7d"⟩], ?_⟩
  intro node
  have name : (page.withNode place node).componentName options = page.componentName options := rfl
  rw [lines, name, withNode, shape, Nat.add_comm]
  simp only [List.append_assoc, List.cons_append]

theorem lines_withNode_of_hidden (options : Options) (page : Page) (hidden : ¬place.Shown)
    (left right : Node) :
    (page.withNode place left).lines options = (page.withNode place right).lines options := by
  have inside := place.lines_fill_of_hidden options hidden 2 left right
  rw [lines, lines, withNode, withNode, inside]
  rfl

end Page

/-- What the compiler makes of a project before and after a node is changed, the node at the place
on the page with the index. -/
structure Project.RecompilesAt (options : Options) (before after : Project) (index : Nat)
    (page : Page) (place : Place) (node changed : Node) : Prop where
  /-- There are as many modules as before, for the same pages and under the same names. -/
  headings : (after.compile options).map (fun made => (made.pageId, made.componentName)) =
    (before.compile options).map fun made => (made.pageId, made.componentName)
  otherModules : ∀ other, other ≠ index →
    (after.compile options)[other]? = (before.compile options)[other]?
  sourceBefore : (before.compile options)[index]?.map CompiledPage.source =
    some (Line.renderAll options.indentWidth (page.lines options))
  sourceAfter : (after.compile options)[index]?.map CompiledPage.source =
    some (Line.renderAll options.indentWidth ((page.withNode place changed).lines options))
  /-- Where the lines of the node stand, the first of them is another one. -/
  oneLine : place.Shown → ∃ front back later,
    (∀ other : Node, (page.withNode place other).lines options =
      front ++ (other.lines options (place.depth + 2) ++ back)) ∧
    page.lines options = front ++ node.firstLine options (place.depth + 2) :: later ∧
    (page.withNode place changed).lines options =
      front ++ changed.firstLine options (place.depth + 2) :: later
  sameLines : ¬place.Shown ∨ node.element.LooksLike changed.element →
    (page.withNode place changed).lines options = page.lines options
  sameCode : ¬place.Shown ∨ node.element.LooksLike changed.element →
    after.compile options = before.compile options

namespace Page

variable {place : Place} {element changed : Element}

theorem lines_differ_in_first (options : Options) (page : Page) (shown : place.Shown)
    (sameKind : changed.kind = element.kind) (children : List Node) : ∃ front back later,
    (∀ other : Node, (page.withNode place other).lines options =
      front ++ (other.lines options (place.depth + 2) ++ back)) ∧
    (page.withNode place ⟨element, children⟩).lines options =
      front ++ Node.firstLine options (place.depth + 2) ⟨element, children⟩ :: later ∧
    (page.withNode place ⟨changed, children⟩).lines options =
      front ++ Node.firstLine options (place.depth + 2) ⟨changed, children⟩ :: later := by
  obtain ⟨front, back, shape⟩ := page.lines_withNode options shown
  obtain ⟨later, first⟩ :=
    Node.lines_eq_cons options (place.depth + 2) element.kind children
  refine ⟨front, back, later ++ back, shape, ?_, ?_⟩
  · rw [shape, first element rfl, List.cons_append]
  · rw [shape, first changed sameKind, List.cons_append]

theorem lines_of_looksLike (options : Options) (page : Page) (same : element.LooksLike changed)
    (children : List Node) :
    (page.withNode place ⟨changed, children⟩).lines options =
      (page.withNode place ⟨element, children⟩).lines options := by
  by_cases shown : place.Shown
  · have sameKind : changed.kind = element.kind := by
      obtain ⟨name, x, y, rfl⟩ := same
      rfl
    obtain ⟨front, back, later, -, before, after⟩ :=
      page.lines_differ_in_first options shown sameKind children
    rw [before, after, Node.firstLine_of_looksLike same]
  · exact page.lines_withNode_of_hidden options shown _ _

end Page

/-- The compiled page, as it stands in its project. -/
def Page.compiled (options : Options) (page : Page) : CompiledPage :=
  ⟨page.id, page.componentName options, page.compile options⟩

namespace Project

theorem compile_split (options : Options) {project : Project} {front back : List Page} {page : Page}
    (pages : project.pages = front ++ page :: back) :
    project.compile options =
      front.map (Page.compiled options) ++
        page.compiled options :: back.map (Page.compiled options) := by
  have compiled : project.compile options = project.pages.map (Page.compiled options) := rfl
  rw [compiled, pages, List.map_append, List.map_cons]

theorem recompilesAt (options : Options) (project : Project) {front back : List Page}
    {page : Page} {place : Place} {element changed : Element} {children : List Node}
    (pages : project.pages = front ++ page :: back)
    (root : page.root = place.fill ⟨element, children⟩) (sameKind : changed.kind = element.kind) :
    RecompilesAt options project
      { project with pages := front ++ page.withNode place ⟨changed, children⟩ :: back }
      front.length page place ⟨element, children⟩ ⟨changed, children⟩ := by
  let shown := page.withNode place ⟨changed, children⟩
  let next : Project := { project with pages := front ++ shown :: back }
  have itself : page.withNode place ⟨element, children⟩ = page := by rw [Page.withNode, ← root]
  have before := compile_split options pages
  have after : next.compile options = front.map (Page.compiled options) ++
      shown.compiled options :: back.map (Page.compiled options) := compile_split options rfl
  have lines : ¬place.Shown ∨ element.LooksLike changed →
      shown.lines options = page.lines options := by
    rintro (hidden | same)
    · exact (page.lines_withNode_of_hidden options hidden _ _).trans (congrArg _ itself)
    · exact (page.lines_of_looksLike options same children).trans (congrArg _ itself)
  constructor
  case headings =>
    rw [before, after, List.map_append, List.map_append, List.map_cons, List.map_cons]
    rfl
  case otherModules =>
    intro other different
    have replaced : next.compile options =
        (project.compile options).set front.length (shown.compiled options) := by
      simp [before, after]
    rw [replaced, List.getElem?_set_ne different.symm]
  case sourceBefore => simp [before, Page.compiled, Page.compile_eq_renderAll]
  case sourceAfter =>
    rw [after]
    simp [Page.compiled, Page.compile_eq_renderAll, shown]
  case oneLine =>
    intro visible
    have differ := page.lines_differ_in_first options visible sameKind children
    rwa [itself] at differ
  case sameLines => exact lines
  case sameCode =>
    intro same
    have text : shown.compile options = page.compile options := by
      rw [Page.compile_eq_renderAll, Page.compile_eq_renderAll, lines same]
    rw [before, after, Page.compiled, Page.compiled, text]
    rfl

end Project

namespace Session

variable {α : Type}

/-- In every state and for all options, whether or not ids repeat on the page. -/
theorem update_recompiles_one_line (session : Session α) (options : Options) (id : String)
    (change : NodeUpdate)
    (committed : (session.dispatch (NodeCommand.update id change).command).2.1 = .committed) :
    let before := session.workspace
    let after := (session.dispatch (NodeCommand.update id change).command).1.workspace
    ∃ project next index page place node,
      before.project = some project ∧ after.project = some next ∧
      before.page? = some page ∧ project.pages[index]? = some page ∧
      after.page? = some (page.withNode place (change.appliedTo node)) ∧
      page.root.find? id = some node ∧ page.root = place.fill node ∧ place.Avoids id ∧
      project.RecompilesAt options next index page place node (change.appliedTo node) := by
  intro before after
  obtain ⟨project, front, page, back, root, shown, done, left⟩ :=
    (commit_of_committed committed).update
  obtain ⟨place, ⟨element, children⟩, avoids, same, filled, rfl⟩ := change.run_at_place done
  have found : page.root.find? id = some ⟨element, children⟩ := by
    rw [filled]
    exact Place.find?_fill avoids same
  have current : after.pageId = before.pageId := by
    simp only [after]
    rw [left]
    rfl
  have shownNext : after.page? =
      some (page.withNode place (change.appliedTo ⟨element, children⟩)) :=
    shown.replaceRoot (congrArg Workspace.project left) current
  have inPlace : project.pages[front.length]? = some page := by simp [shown.split]
  exact ⟨project, _, front.length, page, place, _, shown.opened, congrArg Workspace.project left,
    shown.page?_eq, inPlace, shownNext, found, filled, avoids,
    project.recompilesAt options shown.split filled (change.applied_id element).2⟩

/-- A note inside a box of the second page gets a width, and a class with it. -/
theorem note_resized_in_one_line :
    let note : Node := (Node.text "note" "Note").withContent (.ofText "Hello")
    let box : Node := (Node.frame "box" "Box").withChildren [note, .image "photo" "Photo"]
    let actions : List (Action Unit) := [.dispatch (.createProject "Site"),
      .dispatch (.addPage "About"), .dispatch (.addNode box none)]
    let session := ((new "").run actions).1
    let change : NodeUpdate := .layout { width := some 320 }
    let result := session.dispatch (NodeCommand.update "note" change).command
    let changed : Node := note.withLayout { width := 320 }
    result.2.1 = .committed ∧
      note.firstLine {} 4 = ⟨4, "<p className=\"\">Hello</p>"⟩ ∧
      changed.firstLine {} 4 = ⟨4, "<p className=\"w-[320px]\">Hello</p>"⟩ ∧
      ∃ project next index page place, session.workspace.project = some project ∧
        result.1.workspace.project = some next ∧ session.workspace.page? = some page ∧
        page.root = place.fill note ∧
        project.RecompilesAt {} next index page place note changed := by
  intro note box actions session change result changed
  have committed : result.2.1 = .committed := by decide +kernel
  have found : (session.workspace.page?.bind fun page => page.root.find? "note") = some note := by
    decide +kernel
  have applied : change.appliedTo note = changed := by decide +kernel
  obtain ⟨project, next, index, page, place, node, opened, left, shown, -, -, here, filled, -,
      code⟩ := update_recompiles_one_line session {} "note" change committed
  rw [shown, Option.bind_some, here] at found
  cases found
  rw [applied] at code
  exact ⟨committed, by decide +kernel, by decide +kernel, project, next, index, page, place, opened,
    left, shown, filled, code⟩

end Session

end PageDesigner
