import PageDesigner.Component.Classes
import PageDesigner.Proofs.Component.Scale
import PageDesigner.Proofs.Component.Words

/-!
The classes of an element, written in one text with blanks between them, and the words of that text.
All of a class but a color that is spliced into it is visible ASCII. So the words are the classes
again just where the colors hold no whitespace; a color that holds some leaves its class in pieces,
but no class goes missing or runs into the next one.
-/

namespace PageDesigner

def Visible (text : String) : Prop := ∀ c ∈ text.toList, isVisibleAscii c = true

instance (text : String) : Decidable (Visible text) :=
  List.decidableBAll (fun c => isVisibleAscii c = true) text.toList

theorem Visible.append {left right : String} (first : Visible left) (second : Visible right) :
    Visible (left ++ right) := by
  intro c member
  rw [String.toList_append] at member
  rcases List.mem_append.mp member with before | after
  · exact first c before
  · exact second c after

/-- A text that no kind of whitespace splits or leaves nothing of. -/
structure Solid (text : String) : Prop where
  nonempty : text ≠ ""
  visible : Visible text

instance (text : String) : Decidable (Solid text) :=
  decidable_of_iff (text ≠ "" ∧ Visible text)
    ⟨fun ⟨nonempty, visible⟩ => ⟨nonempty, visible⟩, fun solid => ⟨solid.nonempty, solid.visible⟩⟩

namespace Solid

variable {left right text : String}

theorem append (solid : Solid left) (visible : Visible right) : Solid (left ++ right) := by
  constructor
  · simp [solid.nonempty]
  · exact solid.visible.append visible

theorem exists_visible (solid : Solid text) : ∃ c ∈ text.toList, isVisibleAscii c = true := by
  have nonempty : text.toList ≠ [] := by simpa using solid.nonempty
  obtain ⟨c, member⟩ := List.exists_mem_of_ne_nil _ nonempty
  exact ⟨c, member, solid.visible c member⟩

end Solid

theorem isVisibleAscii_of_isDigit {c : Char} (digit : c.isDigit = true) :
    isVisibleAscii c = true := by
  simp only [Char.isDigit, Bool.and_eq_true, decide_eq_true_eq, UInt32.le_iff_toNat_le] at digit
  have first : '0'.val.toNat = 48 := rfl
  have last : '9'.val.toNat = 57 := rfl
  have code : c.toNat = c.val.toNat := rfl
  simp only [isVisibleAscii, Bool.and_eq_true, decide_eq_true_eq, code]
  omega

theorem Decimal.visible_text (x : Float) : Visible (text x) := by
  intro c member
  rw [text, String.toList_ofList] at member
  rcases characters_alphabet x c member with digit | mark
  · exact isVisibleAscii_of_isDigit digit
  · have visible : marks.all isVisibleAscii = true := by decide
    exact List.all_eq_true.mp visible c mark

theorem solid_arbitraryClass {scale value : String} (solid : Solid scale)
    (visible : Visible value) : Solid (arbitraryClass scale value) :=
  ((solid.append (by decide)).append visible).append (by decide)

theorem solid_pixelClass {scale : String} (solid : Solid scale) (value : Float) :
    Solid (pixelClass scale value) :=
  solid_arbitraryClass solid ((Decimal.visible_text value).append (by decide))

section Scale

theorem solid_step {steps : List (Nat × String)} {value : Float} {name : String}
    (solid : ∀ name ∈ steps.map Prod.snd, Solid name) (found : scaleStep? steps value = some name) :
    Solid name := by
  obtain ⟨pixels, -, found⟩ := Option.bind_eq_some_iff.mp found
  exact solid name (List.mem_map_of_mem (mem_of_lookup found))

theorem solid_fontSizeClass (size : Float) : Solid (fontSizeClass size) := by
  unfold fontSizeClass
  split
  · rename_i found
    exact Solid.append (by decide) (solid_step (by decide) found).visible
  · exact solid_pixelClass (by decide) size

theorem solid_spacingClass {scale : String} (solid : Solid scale) (value : Float) :
    Solid (spacingClass scale value) := by
  unfold spacingClass
  split
  · rename_i found
    exact (solid.append (by decide)).append (solid_step (by decide) found).visible
  · exact solid_pixelClass solid value

theorem solid_borderRadiusClass (radius : Float) : Solid (borderRadiusClass radius) := by
  unfold borderRadiusClass
  cases found : scaleStep? radiusSteps radius with
  | some step => exact solid_step (by decide) found
  | none => exact solid_pixelClass (by decide) radius

end Scale

section Color

/-- Lower case makes no invisible character visible. -/
theorem visible_of_lowerAscii {text : String} (visible : Visible (lowerAscii text)) :
    Visible text := by
  intro c member
  have lower : isVisibleAscii c.toLower = true := by
    apply visible
    rw [lowerAscii, String.toList_ofList]
    exact List.mem_map_of_mem member
  unfold Char.toLower at lower
  split at lower
  · rename_i upper
    have first : 65 ≤ c.val.toNat := upper.1
    have last : c.val.toNat ≤ 90 := upper.2
    have code : c.toNat = c.val.toNat := rfl
    simp only [isVisibleAscii, Bool.and_eq_true, decide_eq_true_eq, code]
    omega
  · exact lower

theorem visible_of_paletteName? {color name : String} (found : paletteName? color = some name) :
    Visible color ∧ Visible name := by
  have colors : ∀ entry ∈ palette, Visible entry.1 ∧ Visible entry.2 := by decide
  have entry := colors (lowerAscii color, name) (mem_of_lookup found)
  exact ⟨visible_of_lowerAscii entry.1, entry.2⟩

namespace Whitespace

variable {whitespace : Whitespace} {left right text : String}

theorem absentFrom_of_visible (visible : Visible text) : whitespace.AbsentFrom text :=
  fun c member => whitespace.visible c (visible c member)

theorem absentFrom_append_iff :
    whitespace.AbsentFrom (left ++ right) ↔
      whitespace.AbsentFrom left ∧ whitespace.AbsentFrom right := by
  simp only [AbsentFrom, String.toList_append, List.forall_mem_append]

/-- The palette has visible colors only, so a class loses no whitespace with the color it names. -/
theorem absentFrom_colorClass_iff {scale : String} (solid : Solid scale) (color : String) :
    whitespace.AbsentFrom (colorClass scale color) ↔ whitespace.AbsentFrom color := by
  unfold colorClass
  split
  · rename_i name found
    obtain ⟨visibleColor, visibleName⟩ := visible_of_paletteName? found
    have dash : Visible "-" := by decide
    have visibleClass := ((solid.append dash).append visibleName).visible
    exact iff_of_true (absentFrom_of_visible visibleClass) (absentFrom_of_visible visibleColor)
  · have opening : whitespace.AbsentFrom "-[" := absentFrom_of_visible (by decide)
    have closing : whitespace.AbsentFrom "]" := absentFrom_of_visible (by decide)
    simp only [arbitraryClass, absentFrom_append_iff, absentFrom_of_visible solid.visible, opening,
      closing, true_and, and_true]

end Whitespace

theorem exists_visible_of_colorClass {scale : String} (solid : Solid scale) (color : String) :
    ∃ c ∈ (colorClass scale color).toList, isVisibleAscii c = true := by
  obtain ⟨c, member, visible⟩ := solid.exists_visible
  refine ⟨c, ?_, visible⟩
  unfold colorClass
  split <;> simp [arbitraryClass, member]

end Color

/-- The colors that give a class. A border color does only beside a border width. -/
def Styles.classColors (styles : Styles) : List String :=
  styles.backgroundColor.toList ++ styles.color.toList ++
    if styles.borderWidth.isSome then styles.borderColor.toList else []

/-- A class without a color in it, or one that a color was translated to. -/
inductive ClassOf (colors : List String) : String → Prop
  | solid {name : String} : Solid name → ClassOf colors name
  | color {scale color : String} : Solid scale → color ∈ colors →
      ClassOf colors (colorClass scale color)

theorem Layout.solid_classes (layout : Layout) : ∀ name ∈ layout.classes, Solid name := by
  have pixels {scale : String} (solid : Solid scale) (option : Option Float) :
      ∀ name ∈ (option.map (pixelClass scale)).toList, Solid name := by
    simp only [Option.mem_toList, Option.map_eq_some_iff, forall_exists_index, and_imp]
    rintro _ value - rfl
    exact solid_pixelClass solid value
  have size {scale : String} (solid : Solid scale) (value : Float) :
      ∀ name ∈ sizeClass scale value, Solid name := by
    unfold sizeClass
    split
    · simpa using solid_pixelClass solid value
    · nofun
  have flex : ∀ name ∈ layout.flexClasses, Solid name := by
    unfold flexClasses
    split
    · simp only [List.forall_mem_append]
      refine ⟨⟨⟨⟨by decide, ?direction⟩, ?justify⟩, ?align⟩, pixels (by decide) layout.gap⟩
      case direction => split <;> decide
      case justify => cases layout.justifyContent with
        | none => nofun
        | some justify => cases justify <;> decide
      case align => cases layout.alignItems with
        | none => nofun
        | some align => cases align <;> decide
    · nofun
  simp only [classes, List.forall_mem_append]
  exact ⟨⟨size (by decide) layout.width, size (by decide) layout.height⟩, flex⟩

namespace Styles

variable (styles : Styles)

theorem classes_classOf : ∀ name ∈ styles.classes, ClassOf styles.classColors name := by
  have solid {α : Type} {toClass : α → String} (option : Option α)
      (each : ∀ value, Solid (toClass value)) :
      ∀ name ∈ (option.map toClass).toList, ClassOf styles.classColors name := by
    simp only [Option.mem_toList, Option.map_eq_some_iff, forall_exists_index, and_imp]
    rintro _ value - rfl
    exact .solid (each value)
  have color {scale : String} (solid : Solid scale) (option : Option String)
      (counts : option.toList ⊆ styles.classColors) :
      ∀ name ∈ (option.map (colorClass scale)).toList, ClassOf styles.classColors name := by
    simp only [Option.mem_toList, Option.map_eq_some_iff, forall_exists_index, and_imp]
    rintro _ value given rfl
    exact .color solid (counts (Option.mem_toList.mpr given))
  have border : ∀ name ∈ styles.borderClasses, ClassOf styles.classColors name := by
    unfold borderClasses
    cases width : styles.borderWidth with
    | none => nofun
    | some value =>
      rw [List.forall_mem_cons]
      refine ⟨.solid (solid_pixelClass (by decide) value), color (by decide) styles.borderColor ?_⟩
      simp [classColors, width]
  have opacity : ∀ name ∈ (styles.opacity.map opacityClass).getD [],
      ClassOf styles.classColors name := by
    cases styles.opacity with
    | none => nofun
    | some value =>
      rw [Option.map_some, Option.getD_some]
      unfold opacityClass
      split
      · rw [List.forall_mem_singleton]
        exact .solid (solid_arbitraryClass (by decide) (Decimal.visible_text value))
      · nofun
  simp only [classes, List.forall_mem_append]
  refine ⟨⟨⟨⟨⟨⟨⟨color (by decide) _ ?background, color (by decide) _ ?text⟩,
    solid _ solid_fontSizeClass⟩, solid _ ?weight⟩, solid _ (solid_spacingClass (by decide))⟩,
    solid _ solid_borderRadiusClass⟩, border⟩, opacity⟩
  case background => simp [classColors]
  case text => simp [classColors]
  case weight => exact fun weight => by cases weight <;> decide

theorem exists_class_of_color {color : String} (counts : color ∈ styles.classColors) :
    ∃ scale, Solid scale ∧ colorClass scale color ∈ styles.classes := by
  simp only [classColors, List.mem_append, Option.mem_toList] at counts
  rcases counts with (background | text) | border
  · exact ⟨"bg", by decide, by simp [classes, background]⟩
  · exact ⟨"text", by decide, by simp [classes, text]⟩
  · refine ⟨"border", by decide, ?_⟩
    cases width : styles.borderWidth with
    | none => simp [width] at border
    | some value =>
      have given : styles.borderColor = some color := by simpa [width] using border
      simp [classes, borderClasses, width, given]

end Styles

namespace Element

variable (element : Element)

theorem classes_classOf : ∀ name ∈ element.classes, ClassOf element.styles.classColors name := by
  rw [classes, List.forall_mem_append]
  exact ⟨fun name member => .solid (element.layout.solid_classes name member),
    element.styles.classes_classOf⟩

theorem exists_visible_of_class {name : String} (member : name ∈ element.classes) :
    ∃ c ∈ name.toList, isVisibleAscii c = true := by
  cases element.classes_classOf name member with
  | solid solid => exact solid.exists_visible
  | color solid _ => exact exists_visible_of_colorClass solid _

theorem absentFrom_classes_iff (whitespace : Whitespace) :
    (∀ name ∈ element.classes, whitespace.AbsentFrom name) ↔
      ∀ color ∈ element.styles.classColors, whitespace.AbsentFrom color := by
  constructor
  · intro absent color counts
    obtain ⟨scale, solid, member⟩ := element.styles.exists_class_of_color counts
    have inClasses : colorClass scale color ∈ element.classes :=
      List.mem_append_right element.layout.classes member
    exact (Whitespace.absentFrom_colorClass_iff solid color).mp (absent _ inClasses)
  · intro absent name member
    cases element.classes_classOf name member with
    | solid solid => exact Whitespace.absentFrom_of_visible solid.visible
    | @color scale color solid counts =>
      exact (Whitespace.absentFrom_colorClass_iff solid color).mpr (absent color counts)

/-- Whatever counts as whitespace, the words of the text are those of the classes one after the
other, at least one for each class. They are the classes themselves just where no color that gives a
class holds whitespace. -/
theorem class_text_splits_back_iff (whitespace : Whitespace) :
    whitespace.words element.classNames = element.classes.flatMap whitespace.words ∧
      (∀ name ∈ element.classes, whitespace.words name ≠ []) ∧
      (whitespace.words element.classNames = element.classes ↔
        ∀ color ∈ element.styles.classColors, whitespace.AbsentFrom color) := by
  have split : whitespace.words element.classNames = element.classes.flatMap whitespace.words :=
    whitespace.words_intercalate element.classes
  have nonempty : ∀ name ∈ element.classes, name ≠ "" := by
    rintro _ member rfl
    obtain ⟨c, inside, -⟩ := element.exists_visible_of_class member
    cases inside
  refine ⟨split, ?_, ?_⟩
  · intro name member
    obtain ⟨c, inside, visible⟩ := element.exists_visible_of_class member
    exact whitespace.words_ne_nil inside visible
  · rw [split, whitespace.flatMap_words_eq_self_iff nonempty]
    exact element.absentFrom_classes_iff whitespace

/-- A color in the functional notation of style sheets breaks its class into three words. -/
theorem color_with_blanks_splits_class :
    let element : Element :=
      { id := "card", kind := .frame, name := "Card",
        styles := { backgroundColor := some "rgb(255, 0, 0)", padding := some 8 } }
    element.classes = ["bg-[rgb(255, 0, 0)]", "p-2"] ∧
      Whitespace.ofMarkup.words element.classNames = ["bg-[rgb(255,", "0,", "0)]", "p-2"] ∧
      Whitespace.ofUnicode.words element.classNames ≠ element.classes := by
  decide +kernel

end Element
end PageDesigner
