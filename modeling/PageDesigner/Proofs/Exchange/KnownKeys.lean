import PageDesigner.Proofs.Editor.History
import PageDesigner.Proofs.Exchange.Schema
import PageDesigner.Proofs.Tree.FirstMatch

/-!
A decoder takes from a value what stands under the keys of its records. What a node is and what it
holds has no key in a partial element, so an update that comes in as JSON has no say in it.
-/

namespace PageDesigner

open Json Fields

/-- No rewording makes, breaks or changes what the decoder gives. -/
def Shape.DecidedByKeys {α : Type} (shape : Shape) (decode : Json → Decoded α) : Prop :=
  ∀ before after, Rewording shape before after →
    ∀ value, decode before = .ok value ↔ decode after = .ok value

namespace Workspace

/-- At most one element has changed, into one of the same id and kind that holds the same nodes. -/
inductive KeepsHierarchy (before : Workspace) : Workspace → Prop
  | unchanged : KeepsHierarchy before before
  | redrawn {project : Project} {front back : List Page} {page : Page} {place : Place}
    {element other : Element} {children : List Node}
    (shown : before.Displays project front page back)
    (found : page.root = place.fill ⟨element, children⟩) (sameId : other.id = element.id)
    (sameKind : other.kind = element.kind) :
    KeepsHierarchy before
      (before.withPages project
        (front ++ { page with root := place.fill ⟨other, children⟩ } :: back))

/-- For each page what its elements are and how many nodes they hold. -/
def skeletons (workspace : Workspace) : Option (List (String × List (String × Kind × Nat))) :=
  workspace.project.map fun project =>
    project.pages.map fun page => (page.id, page.root.skeleton)

variable {before after : Workspace}

theorem KeepsHierarchy.skeletons_eq (keeps : before.KeepsHierarchy after) :
    after.skeletons = before.skeletons := by
  cases keeps with
  | unchanged => rfl
  | @redrawn project front back page place element other children shown found sameId sameKind =>
    have sameSkeleton : (place.fill ⟨other, children⟩).skeleton = page.root.skeleton := by
      rw [found, place.skeleton_fill children sameId sameKind]
    simp only [skeletons, withPages, shown.opened, shown.split, Option.map_some, List.map_append,
      List.map_cons, sameSkeleton]

theorem Commit.keepsHierarchy {ids source : IdSource} {id : String} {patch : ElementPatch}
    (committed : before.Commit ids (.updateNode id patch) after source) :
    before.KeepsHierarchy after := by
  cases committed with
  | @updateNode project front back page root id patch shown updated =>
    have done : (NodeUpdate.parts patch).run id page.root = some root := updated
    obtain ⟨place, ⟨element, children⟩, -, -, found, rfl⟩ := NodeUpdate.run_at_place done
    obtain ⟨sameId, sameKind⟩ := (NodeUpdate.parts patch).applied_id element
    exact .redrawn shown found sameId sameKind

end Workspace

theorem Session.update_keepsHierarchy {α : Type} (session : Session α) (id : String)
    (patch : ElementPatch) :
    session.workspace.KeepsHierarchy (session.dispatch (.updateNode id patch)).1.workspace := by
  cases done : session.workspace.apply session.ids (.updateNode id patch) with
  | error reason =>
    rw [dispatch_eq, done]
    exact .unchanged
  | ok outcome =>
    obtain ⟨next, ids⟩ := outcome
    rw [(dispatch_of_apply done).2]
    exact (Workspace.commit_of_apply done).keepsHierarchy

theorem Command.eq_updateNode_of_decoded {body : Json} {others : List (String × Json)}
    {command : Command} (read : ofJson (.object (("UpdateNode", body) :: others)) = .ok command) :
    ∃ id patch, command = .updateNode id patch := by
  obtain ⟨fields, named, decoded⟩ := arguments_eq_ok.mp (ofJson_eq_ok.mp read).1
  obtain rfl := Option.some_inj.mp named
  have gives : (updateNode <$> required "node_id" asText <*>
      required "patch" ElementPatch.ofJson).Gives fun command =>
        ∃ id patch, command = .updateNode id patch :=
    .seq (gives_any _) <| .map (gives_any _) fun id _ patch _ => ⟨id, patch, rfl⟩
  exact gives.of_decode body command decoded

/-- Not on the order of keys, on keys that a record does not know, or on whether an unset member is
`null` or left out, however the records around it are spelled. An update may be for any session, and
need not be committed there. -/
theorem decoding_depends_on_known_keys :
    (Shape.record .node).DecidedByKeys Node.ofJson ∧
    (Shape.record .page).DecidedByKeys Page.ofJson ∧
    (Shape.record .project).DecidedByKeys Project.ofJson ∧
    (Shape.record .layout).DecidedByKeys Layout.ofJson ∧
    (Shape.record .layoutPatch).DecidedByKeys LayoutPatch.ofJson ∧
    (Shape.record .styles).DecidedByKeys Styles.ofJson ∧
    (Shape.record .content).DecidedByKeys Content.ofJson ∧
    (Shape.record .elementPatch).DecidedByKeys ElementPatch.ofJson ∧
    (Shape.record .options).DecidedByKeys Options.ofJson ∧
    Shape.command.DecidedByKeys Command.ofJson ∧
    (∀ name ∈ ["id", "type", "children"], ∀ front value back,
      ∀ patch, ElementPatch.ofJson (.object (front ++ (name, value) :: back)) = .ok patch ↔
        ElementPatch.ofJson (.object (front ++ back)) = .ok patch) ∧
    ∀ body others command,
      Command.ofJson (.object (("UpdateNode", body) :: others)) = .ok command →
      ∀ {α : Type} (session : Session α),
        let next := (session.dispatch command).1.workspace
        session.workspace.KeepsHierarchy next ∧ next.skeletons = session.workspace.skeletons := by
  have decided {α : Type} {shape : Shape} {decode : Json → Decoded α}
      (alike : ∀ before after, shape.Same before after → Alike decode before after) :
      shape.DecidedByKeys decode :=
    fun before after rewording => (alike before after rewording.same).decode_iff
  refine ⟨decided (Shape.record_alike .node), decided (Shape.record_alike .page),
    decided (Shape.record_alike .project), decided (Shape.record_alike .layout),
    decided (Shape.record_alike .layoutPatch), decided (Shape.record_alike .styles),
    decided (Shape.record_alike .content), decided (Shape.record_alike .elementPatch),
    decided (Shape.record_alike .options), decided fun _ _ same => same, ?ignored, ?kept⟩
  case ignored =>
    intro name among front value back
    have unknown : RecordType.elementPatch.key? name = none := by
      revert name
      decide
    exact fun patch => ((agree_of_extended front value back unknown).alike.decode_iff patch).symm
  case kept =>
    intro body others command read α session next
    obtain ⟨id, patch, rfl⟩ := Command.eq_updateNode_of_decoded read
    have keeps := session.update_keepsHierarchy id patch
    exact ⟨keeps, keeps.skeletons_eq⟩

/-- A page with a text inside its root. The members given for the text come after its layout. The
root and the layouts are spelled as arrays, and the text's kind as an object. -/
def homeJson (members : List (String × Json)) : Json :=
  let layout : Json := .array (List.replicate 4 (.number (.natural 0)))
  let note : Json := .object <|
    [("id", .text "note"), ("type", .object [("text", .null)]), ("name", .text "Note"),
      ("layout", layout)] ++ members
  .object [("id", .text "home"), ("name", .text "Home"),
    ("root", .array [.text "root", .text "frame", .text "Root", layout, .object [], .null,
      .array [note]])]

/-- A patch with a new name, and with the members given before it. -/
def renamePatch (members : List (String × Json)) : Json :=
  .object (members ++ [("name", .text "Card")])

/-- Renames the first root of a new project. -/
def renameJson (members : List (String × Json)) : Json :=
  .object [("UpdateNode", .object [("node_id", .text "0-3"), ("patch", renamePatch members)])]

/-- Content that is `null` deep inside a page is no content, and a patch that wants to empty a node
only renames it. -/
theorem patch_with_children_only_renames :
    let page : Page :=
      ⟨"home", "Home", (Node.frame "root" "Root").withChildren [.text "note" "Note"]⟩
    let patch : ElementPatch := { name := some "Card" }
    let rename : Command := .updateNode "0-3" patch
    let actions : List (Action Unit) := [.dispatch (.createProject "Site")]
    let session := ((Session.new "").run actions).1
    let next := (session.dispatch rename).1.workspace
    Rewording (.record .page) (homeJson [("content", .null)]) (homeJson []) ∧
      Page.ofJson (homeJson []) = .ok page ∧
      ElementPatch.ofJson (renamePatch [("children", .array [])]) = .ok patch ∧
      Rewording .command (renameJson []) (renameJson [("children", .array [])]) ∧
      Command.ofJson (renameJson [("children", .array [])]) = .ok rename ∧
      next ≠ session.workspace ∧ session.workspace.KeepsHierarchy next ∧
      next.skeletons = session.workspace.skeletons := by
  intro page patch rename actions session next
  obtain ⟨-, pages, -, -, -, -, -, -, -, commands, ignored, kept⟩ := decoding_depends_on_known_keys
  -- Each underscore stands for a member or an item before the one that the change is in.
  have unset : Rewording (.record .page) (homeJson [("content", .null)]) (homeJson []) :=
    .member [_, _] [] rfl <| .place [_, _, _, _, _, _] [] rfl rfl <| .item [] [] <|
      .unset [_, _, _, _] [] rfl rfl (by decide)
  have extended : Rewording .command (renameJson []) (renameJson [("children", .array [])]) :=
    .arguments <| .member [_] [] rfl <| .extended [] _ _ rfl
  have home : Page.ofJson (homeJson [("content", .null)]) = .ok page := rfl
  have renamed : ElementPatch.ofJson (renamePatch []) = .ok patch := rfl
  have read : Command.ofJson (renameJson []) = .ok rename := rfl
  have emptied := (ignored "children" (by decide) [] (.array []) _ patch).mpr renamed
  have stuffed := (commands _ _ extended rename).mp read
  have changed : next ≠ session.workspace := by decide +kernel
  exact ⟨unset, (pages _ _ unset page).mp home, emptied, extended, stuffed, changed,
    kept _ _ _ stuffed session⟩

end PageDesigner
