import PageDesigner.Exchange.Command
import PageDesigner.Exchange.Options
import PageDesigner.Exchange.Project
import PageDesigner.Proofs.Exchange.Node

/-!
Projects, options and commands read back from their JSON like the nodes in them. A command is read
as the record of its arguments, by the decoder that stands under its name.
-/

namespace PageDesigner

open Json Fields

namespace Page

def floats (page : Page) : List Float := page.root.floats

theorem restores {page : Page} (finite : AllFinite page.floats) : Restores toJson ofJson page := by
  refine restores_of_reads rfl ?_
  exact (required_reads (by simp) (restores_text page.id)).map mk
    |>.seq (required_reads (by simp) (restores_text page.name))
    |>.seq (required_reads (by simp) (page.root.restores finite))

theorem finite_of_decoded (json : Json) (page : Page) (read : ofJson json = .ok page) :
    AllFinite page.floats := by
  have gives : fields.Gives fun page => AllFinite page.floats := by
    refine .seq (required_gives Node.finite_of_decoded) <| .seq (gives_any _) <|
      .map (gives_any _) ?_
    intro _ _ _ _ root finite
    exact finite
  exact gives.of_decode json page read

end Page

namespace Project

def floats (project : Project) : List Float := project.pages.flatMap Page.floats

theorem restores {project : Project} (finite : AllFinite project.floats) :
    Restores toJson ofJson project := by
  have pages : ∀ page ∈ project.pages, Restores Page.toJson Page.ofJson page :=
    fun page member => Page.restores ((AllFinite.flatMap_iff _ _).mp finite page member)
  refine restores_of_reads rfl ?_
  exact (required_reads (by simp) (restores_text project.id)).map mk
    |>.seq (required_reads (by simp) (restores_text project.name))
    |>.seq (required_reads (by simp) (restores_list pages))

theorem finite_of_decoded (json : Json) (project : Project) (read : ofJson json = .ok project) :
    AllFinite project.floats := by
  have gives : fields.Gives fun project => AllFinite project.floats := by
    refine .seq (required_gives (asList_ensures Page.finite_of_decoded)) <|
      .seq (gives_any _) <| .map (gives_any _) ?_
    intro _ _ _ _ pages finite
    exact (AllFinite.flatMap_iff _ _).mpr finite
  exact gives.of_decode json project read

end Project

theorem Options.restores (options : Options) : Restores toJson ofJson options := by
  refine restores_of_reads rfl ?_
  exact (defaulted_reads (by simp) (restores_natural options.indentWidth)).map mk
    |>.seq (defaulted_reads (by simp) (restores_text options.componentSuffix))
    |>.seq (defaulted_reads (by simp) (restores_text options.placeholderSource))
    |>.seq (defaulted_reads (by simp) (restores_text options.defaultText))

theorem Tool.restores (tool : Tool) : Restores toJson ofJson tool :=
  ⟨nofun, by cases tool <;> rfl⟩

namespace Command

def floats : Command → List Float
  | addNode node _ => node.floats
  | updateNode _ patch => patch.floats
  | updateNodeLayout _ layout => layout.floats
  | updateNodeStyles _ styles => styles.floats
  | setZoom zoom => [zoom]
  | _ => []

theorem variant?_eq_ok {name : String} {fields : Fields Command} :
    variant? name = .ok fields ↔ variants.lookup name = some fields := by
  rw [variant?, choose]
  cases variants.lookup name <;> simp

theorem ofJson_of_reads {name : String} {fields : Fields Command} {members : List (String × Json)}
    {command : Command} (variant : variants.lookup name = some fields)
    (reads : fields.Reads members command) :
    ofJson (.object [(name, .object members)]) = .ok command := by
  rw [ofJson, Decoded.bind_eq_ok]
  refine ⟨fields, variant?_eq_ok.mpr variant, ?_⟩
  rw [Decoded.bind_eq_ok]
  exact ⟨command, decode_object_iff.mpr reads, rfl⟩

theorem restores {command : Command} (finite : AllFinite command.floats) :
    ofJson command.toJson = .ok command := by
  have text {key value : String} {members : List (String × Json)}
      (given : valuesOf key members = [.text value]) :
      (required key asText).Reads members value :=
    required_reads given (restores_text value)
  cases command with
  | createProject name => exact ofJson_of_reads rfl ((text (by simp)).map _)
  | addPage name => exact ofJson_of_reads rfl ((text (by simp)).map _)
  | deletePage pageId => exact ofJson_of_reads rfl ((text (by simp)).map _)
  | renamePage pageId name =>
    exact ofJson_of_reads rfl (((text (by simp)).map _).seq (text (by simp)))
  | setCurrentPage pageId => exact ofJson_of_reads rfl ((text (by simp)).map _)
  | addNode node parentId =>
    exact ofJson_of_reads rfl (((required_reads (by simp) (node.restores finite)).map _).seq
      (optional_reads_ofOption (by simp) fun parent _ => restores_text parent))
  | updateNode nodeId patch =>
    exact ofJson_of_reads rfl (((text (by simp)).map _).seq
      (required_reads (by simp) (ElementPatch.restores finite)))
  | updateNodeLayout nodeId layout =>
    exact ofJson_of_reads rfl (((text (by simp)).map _).seq
      (required_reads (by simp) (LayoutPatch.restores finite)))
  | updateNodeStyles nodeId styles =>
    exact ofJson_of_reads rfl (((text (by simp)).map _).seq
      (required_reads (by simp) (Styles.restores finite)))
  | deleteNode nodeId => exact ofJson_of_reads rfl ((text (by simp)).map _)
  | selectNode nodeId =>
    exact ofJson_of_reads rfl
      ((optional_reads_ofOption (by simp) fun node _ => restores_text node).map _)
  | setTool tool => exact ofJson_of_reads rfl ((required_reads (by simp) tool.restores).map _)
  | setZoom zoom =>
    have zoom := restores_float (finite zoom (List.mem_singleton_self zoom))
    exact ofJson_of_reads rfl ((required_reads (by simp) zoom).map _)

/-- A decoded command comes out of the decoder under its name. -/
theorem variant_of_decoded {json : Json} {command : Command} (read : ofJson json = .ok command) :
    ∃ variant ∈ variants, ∃ body, variant.2.decode body = .ok command := by
  unfold ofJson at read
  split at read
  · rename_i name body others
    obtain ⟨fields, named, read⟩ := Decoded.bind_eq_ok.mp read
    obtain ⟨result, decoded, alone⟩ := Decoded.bind_eq_ok.mp read
    have same : result = command := by
      split at alone
      · cases alone
        rfl
      · cases alone
    obtain ⟨before, after, split, -⟩ := List.lookup_eq_some_iff.mp (variant?_eq_ok.mp named)
    exact ⟨(name, fields), by simp [split], body, same ▸ decoded⟩
  · obtain ⟨_, -, mismatch⟩ := Decoded.bind_eq_ok.mp read
    cases mismatch
  · cases read

theorem variants_give_finite :
    ∀ variant ∈ variants, variant.2.Gives fun command => AllFinite command.floats := by
  have plain {α : Type} (fields : Fields α) (f : α → Command) (none : ∀ value, (f value).floats = []) :
      (f <$> fields).Gives fun command => AllFinite command.floats :=
    (gives_any fields).map fun value _ => none value ▸ AllFinite.nil
  simp only [variants, List.forall_mem_cons]
  refine ⟨plain _ _ fun _ => rfl, plain _ _ fun _ => rfl, plain _ _ fun _ => rfl, ?_,
    plain _ _ fun _ => rfl, ?_, ?_, ?_, ?_, plain _ _ fun _ => rfl, plain _ _ fun _ => rfl,
    plain _ _ fun _ => rfl, ?_, nofun⟩
  · exact .seq (gives_any _) <| .map (gives_any _) fun _ _ _ _ => AllFinite.nil
  · exact .seq (gives_any _) <| .map (required_gives Node.finite_of_decoded)
      fun _ node _ _ => node
  · exact .seq (required_gives ElementPatch.finite_of_decoded) <| .map (gives_any _)
      fun _ _ _ patch => patch
  · exact .seq (required_gives LayoutPatch.finite_of_decoded) <| .map (gives_any _)
      fun _ _ _ layout => layout
  · exact .seq (required_gives Styles.finite_of_decoded) <| .map (gives_any _)
      fun _ _ _ styles => styles
  · refine .map (required_gives asFloat_isFinite) fun zoom finite => ?_
    simpa [floats] using finite

theorem finite_of_decoded (json : Json) (command : Command) (read : ofJson json = .ok command) :
    AllFinite command.floats := by
  obtain ⟨variant, member, body, decoded⟩ := variant_of_decoded read
  exact (variants_give_finite variant member).of_decode body command decoded

end Command

/-- Values with finite floats read back from their JSON, and so do all that JSON decodes to. -/
structure RoundTrips {α : Type} (toJson : α → Json) (ofJson : Json → Decoded α)
    (floats : α → List Float) : Prop where
  restored : ∀ value, AllFinite (floats value) → ofJson (toJson value) = .ok value
  stable : ∀ json value, ofJson json = .ok value → ofJson (toJson value) = .ok value

theorem RoundTrips.of_restored {α : Type} {toJson : α → Json} {ofJson : Json → Decoded α}
    {floats : α → List Float}
    (restored : ∀ value, AllFinite (floats value) → ofJson (toJson value) = .ok value)
    (finite : ∀ json value, ofJson json = .ok value → AllFinite (floats value)) :
    RoundTrips toJson ofJson floats :=
  ⟨restored, fun json value read => restored value (finite json value read)⟩

theorem exchanged_data_round_trips :
    RoundTrips Node.toJson Node.ofJson Node.floats ∧
      RoundTrips Page.toJson Page.ofJson Page.floats ∧
      RoundTrips Project.toJson Project.ofJson Project.floats ∧
      RoundTrips Layout.toJson Layout.ofJson Layout.floats ∧
      RoundTrips LayoutPatch.toJson LayoutPatch.ofJson LayoutPatch.floats ∧
      RoundTrips Styles.toJson Styles.ofJson Styles.floats ∧
      RoundTrips Content.toJson Content.ofJson (fun _ => []) ∧
      RoundTrips ElementPatch.toJson ElementPatch.ofJson ElementPatch.floats ∧
      RoundTrips Tool.toJson Tool.ofJson (fun _ => []) ∧
      RoundTrips Options.toJson Options.ofJson (fun _ => []) ∧
      RoundTrips Command.toJson Command.ofJson Command.floats := by
  refine ⟨.of_restored ?node Node.finite_of_decoded, .of_restored ?page Page.finite_of_decoded,
    .of_restored ?project Project.finite_of_decoded, .of_restored ?layout Layout.finite_of_decoded,
    .of_restored ?layoutPatch LayoutPatch.finite_of_decoded,
    .of_restored ?styles Styles.finite_of_decoded,
    .of_restored ?content fun _ _ _ => AllFinite.nil,
    .of_restored ?patch ElementPatch.finite_of_decoded,
    .of_restored ?tool fun _ _ _ => AllFinite.nil,
    .of_restored ?options fun _ _ _ => AllFinite.nil,
    .of_restored ?command Command.finite_of_decoded⟩
  case node => exact fun node finite => (node.restores finite).decoded
  case page => exact fun _ finite => (Page.restores finite).decoded
  case project => exact fun _ finite => (Project.restores finite).decoded
  case layout => exact fun _ finite => (Layout.restores finite).decoded
  case layoutPatch => exact fun _ finite => (LayoutPatch.restores finite).decoded
  case styles => exact fun _ finite => (Styles.restores finite).decoded
  case content => exact fun content _ => content.restores.decoded
  case patch => exact fun _ finite => (ElementPatch.restores finite).decoded
  case tool => exact fun tool _ => tool.restores.decoded
  case options => exact fun options _ => options.restores.decoded
  case command => exact fun _ finite => Command.restores finite

/-- Content that is there but holds nothing, in a text inside a frame. -/
def captioned : Node :=
  ⟨{ id := "card", kind := .frame, name := "Card", layout := { width := 320, gap := some 0.5 } },
    [⟨{ id := "caption", kind := .text, name := "Caption", content := some {} }, []⟩]⟩

/-- Sets the styles to none at all and leaves the content alone. -/
def clearing : Json :=
  .object [("UpdateNode", .object [("node_id", .text "card"),
    ("patch", .object [("content", .null), ("styles", .object [])])])]

theorem unset_parts_survive_exchange :
    AllFinite (Command.addNode captioned none).floats ∧
      Command.ofJson (Command.addNode captioned none).toJson = .ok (.addNode captioned none) ∧
      Command.ofJson clearing = .ok (.updateNode "card" { styles := some {} }) ∧
      Command.ofJson (Command.updateNode "card" { styles := some {} }).toJson =
        .ok (.updateNode "card" { styles := some {} }) := by
  obtain ⟨-, -, -, -, -, -, -, -, -, -, commands⟩ := exchanged_data_round_trips
  have finite : AllFinite (Command.addNode captioned none).floats := by decide
  have read : Command.ofJson clearing = .ok (.updateNode "card" { styles := some {} }) := rfl
  exact ⟨finite, commands.restored _ finite, read, commands.stable _ _ read⟩

end PageDesigner
