import PageDesigner.Exchange.Layout
import PageDesigner.Exchange.Styles
import PageDesigner.Proofs.Json.Record

/-!
Layouts, partial layouts and styles read back from their JSON as long as their floats are finite,
and those that come out of any JSON have finite floats.
-/

namespace PageDesigner

open Json Fields

def AllFinite (floats : List Float) : Prop := ∀ value ∈ floats, value.isFinite = true

instance (floats : List Float) : Decidable (AllFinite floats) :=
  inferInstanceAs (Decidable (∀ value ∈ floats, value.isFinite = true))

namespace AllFinite

@[simp] theorem nil : AllFinite [] := nofun

@[simp] theorem cons_iff (value : Float) (floats : List Float) :
    AllFinite (value :: floats) ↔ value.isFinite = true ∧ AllFinite floats :=
  List.forall_mem_cons

@[simp] theorem append_iff (left right : List Float) :
    AllFinite (left ++ right) ↔ AllFinite left ∧ AllFinite right :=
  List.forall_mem_append

@[simp] theorem toList_iff (option : Option Float) :
    AllFinite option.toList ↔ ∀ value ∈ option, value.isFinite = true := by
  cases option <;> simp [AllFinite]

@[simp] theorem flatMap_iff {α : Type} (values : List α) (floats : α → List Float) :
    AllFinite (values.flatMap floats) ↔ ∀ value ∈ values, AllFinite (floats value) := by
  induction values with
  | nil => simp
  | cons value values ih => rw [List.flatMap_cons, append_iff, ih, List.forall_mem_cons]

end AllFinite

theorem Display.restores (display : Display) : Restores toJson ofJson display :=
  ⟨nofun, by cases display <;> rfl⟩

theorem FlexDirection.restores (direction : FlexDirection) : Restores toJson ofJson direction :=
  ⟨nofun, by cases direction <;> rfl⟩

theorem JustifyContent.restores (justify : JustifyContent) : Restores toJson ofJson justify :=
  ⟨nofun, by cases justify <;> rfl⟩

theorem AlignItems.restores (align : AlignItems) : Restores toJson ofJson align :=
  ⟨nofun, by cases align <;> rfl⟩

theorem FontWeight.restores (weight : FontWeight) : Restores toJson ofJson weight :=
  ⟨nofun, by cases weight <;> rfl⟩

namespace Layout

def floats (layout : Layout) : List Float :=
  [layout.x, layout.y, layout.width, layout.height] ++ layout.gap.toList

theorem restores {layout : Layout} (finite : AllFinite layout.floats) :
    Restores toJson ofJson layout := by
  simp only [floats, AllFinite.append_iff, AllFinite.cons_iff, AllFinite.nil, and_true,
    AllFinite.toList_iff] at finite
  obtain ⟨⟨x, y, width, height⟩, gap⟩ := finite
  refine restores_of_reads rfl ?_
  exact (required_reads (by simp) (restores_float x)).map mk
    |>.seq (required_reads (by simp) (restores_float y))
    |>.seq (required_reads (by simp) (restores_float width))
    |>.seq (required_reads (by simp) (restores_float height))
    |>.seq (optional_reads_present (by simp) fun display _ => display.restores)
    |>.seq (optional_reads_present (by simp) fun direction _ => direction.restores)
    |>.seq (optional_reads_present (by simp) fun justify _ => justify.restores)
    |>.seq (optional_reads_present (by simp) fun align _ => align.restores)
    |>.seq (optional_reads_present (by simp) (restores_floats gap))

theorem finite_of_decoded (json : Json) (layout : Layout) (read : ofJson json = .ok layout) :
    AllFinite layout.floats := by
  have float (key : String) := @required_gives _ key _ _ asFloat_isFinite
  have gives : fields.Gives fun layout => AllFinite layout.floats := by
    refine .seq (optional_gives asFloat_isFinite) <| .seq (gives_any _) <| .seq (gives_any _) <|
      .seq (gives_any _) <| .seq (gives_any _) <| .seq (float "height") <| .seq (float "width") <|
      .seq (float "y") <| .map (float "x") ?_
    intro x hx y hy width hwidth height hheight _ _ _ _ _ _ _ _ gap hgap
    simp only [floats, AllFinite.append_iff, AllFinite.cons_iff, AllFinite.nil, and_true,
      AllFinite.toList_iff]
    exact ⟨⟨hx, hy, hwidth, hheight⟩, hgap⟩
  exact gives.of_decode json layout read

end Layout

namespace LayoutPatch

def floats (patch : LayoutPatch) : List Float :=
  patch.x.toList ++ patch.y.toList ++ patch.width.toList ++ patch.height.toList ++ patch.gap.toList

theorem restores {patch : LayoutPatch} (finite : AllFinite patch.floats) :
    Restores toJson ofJson patch := by
  simp only [floats, AllFinite.append_iff, AllFinite.toList_iff] at finite
  obtain ⟨⟨⟨⟨x, y⟩, width⟩, height⟩, gap⟩ := finite
  refine restores_of_reads rfl ?_
  exact (optional_reads_ofOption (by simp) (restores_floats x)).map mk
    |>.seq (optional_reads_ofOption (by simp) (restores_floats y))
    |>.seq (optional_reads_ofOption (by simp) (restores_floats width))
    |>.seq (optional_reads_ofOption (by simp) (restores_floats height))
    |>.seq (optional_reads_ofOption (by simp) fun display _ => display.restores)
    |>.seq (optional_reads_ofOption (by simp) fun direction _ => direction.restores)
    |>.seq (optional_reads_ofOption (by simp) fun justify _ => justify.restores)
    |>.seq (optional_reads_ofOption (by simp) fun align _ => align.restores)
    |>.seq (optional_reads_ofOption (by simp) (restores_floats gap))

theorem finite_of_decoded (json : Json) (patch : LayoutPatch) (read : ofJson json = .ok patch) :
    AllFinite patch.floats := by
  have float (key : String) : (optional key asFloat).Gives fun option =>
      ∀ value ∈ option, value.isFinite = true := optional_gives asFloat_isFinite
  have gives : fields.Gives fun patch => AllFinite patch.floats := by
    refine .seq (float "gap") <| .seq (gives_any _) <| .seq (gives_any _) <| .seq (gives_any _) <|
      .seq (gives_any _) <| .seq (float "height") <| .seq (float "width") <| .seq (float "y") <|
      .map (float "x") ?_
    intro x hx y hy width hwidth height hheight _ _ _ _ _ _ _ _ gap hgap
    simp only [floats, AllFinite.append_iff, AllFinite.toList_iff]
    exact ⟨⟨⟨⟨hx, hy⟩, hwidth⟩, hheight⟩, hgap⟩
  exact gives.of_decode json patch read

end LayoutPatch

namespace Styles

def floats (styles : Styles) : List Float :=
  styles.fontSize.toList ++ styles.padding.toList ++ styles.borderRadius.toList ++
    styles.borderWidth.toList ++ styles.opacity.toList

theorem restores {styles : Styles} (finite : AllFinite styles.floats) :
    Restores toJson ofJson styles := by
  simp only [floats, AllFinite.append_iff, AllFinite.toList_iff] at finite
  obtain ⟨⟨⟨⟨fontSize, padding⟩, borderRadius⟩, borderWidth⟩, opacity⟩ := finite
  refine restores_of_reads rfl ?_
  exact (optional_reads_present (by simp) fun color _ => restores_text color).map mk
    |>.seq (optional_reads_present (by simp) fun color _ => restores_text color)
    |>.seq (optional_reads_present (by simp) (restores_floats fontSize))
    |>.seq (optional_reads_present (by simp) fun weight _ => weight.restores)
    |>.seq (optional_reads_present (by simp) (restores_floats padding))
    |>.seq (optional_reads_present (by simp) (restores_floats borderRadius))
    |>.seq (optional_reads_present (by simp) (restores_floats borderWidth))
    |>.seq (optional_reads_present (by simp) fun color _ => restores_text color)
    |>.seq (optional_reads_present (by simp) (restores_floats opacity))

theorem finite_of_decoded (json : Json) (styles : Styles) (read : ofJson json = .ok styles) :
    AllFinite styles.floats := by
  have float (key : String) : (optional key asFloat).Gives fun option =>
      ∀ value ∈ option, value.isFinite = true := optional_gives asFloat_isFinite
  have gives : fields.Gives fun styles => AllFinite styles.floats := by
    refine .seq (float "opacity") <| .seq (gives_any _) <| .seq (float "borderWidth") <|
      .seq (float "borderRadius") <| .seq (float "padding") <| .seq (gives_any _) <|
      .seq (float "fontSize") <| .seq (gives_any _) <| .map (gives_any _) ?_
    intro _ _ _ _ fontSize hfontSize _ _ padding hpadding borderRadius hborderRadius borderWidth
      hborderWidth _ _ opacity hopacity
    simp only [floats, AllFinite.append_iff, AllFinite.toList_iff]
    exact ⟨⟨⟨⟨hfontSize, hpadding⟩, hborderRadius⟩, hborderWidth⟩, hopacity⟩
  exact gives.of_decode json styles read

end Styles
end PageDesigner
