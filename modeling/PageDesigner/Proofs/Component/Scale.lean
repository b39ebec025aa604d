import PageDesigner.Component.Scale
import PageDesigner.Proofs.Decimal.Text
import PageDesigner.Proofs.Double.Comparison

/-!
The classes of single values keep different values apart. Steps of a scale and colors of the palette
have names of their own, none of which ends in a bracket as the classes of all other values do, and
what those have in the brackets tells them apart.
-/

namespace PageDesigner

/-- The same number, whatever the sign of a zero, or no number either time. -/
def SameValue (left right : Float) : Prop :=
  (left == right) = true ∨ left.isNaN = true ∧ right.isNaN = true

section Value

variable {left right : Float}

theorem sameValue_of_text_eq (same : Decimal.text left = Decimal.text right) :
    SameValue left right := by
  cases leftNumber : left.isNaN with
  | true => exact .inr ⟨leftNumber, Decimal.isNaN_of_text_eq leftNumber same⟩
  | false =>
    cases rightNumber : right.isNaN with
    | true =>
      have notNumber := Decimal.isNaN_of_text_eq rightNumber same.symm
      rw [leftNumber] at notNumber
      cases notNumber
    | false =>
      rw [Decimal.eq_of_text_eq leftNumber rightNumber same]
      exact .inl (float_beq_self rightNumber)

theorem toFloat_beq_of_wholePixels? {value : Float} {pixels : Nat}
    (whole : wholePixels? value = some pixels) : ((UInt32.ofNat pixels).toFloat == value) = true := by
  unfold wholePixels? at whole
  split at whole
  · rename_i reads
    injection whole with same
    rw [← same, UInt32.ofNat_toNat]
    exact reads
  · cases whole

theorem sameValue_of_wholePixels? {pixels : Nat} (first : wholePixels? left = some pixels)
    (second : wholePixels? right = some pixels) : SameValue left right :=
  .inl (float_beq_of_common (toFloat_beq_of_wholePixels? first)
    (toFloat_beq_of_wholePixels? second))

end Value

section Bracket

/-- The text has a last character, and it is no closing bracket. -/
def Unbracketed (text : String) : Prop := text.toList.getLast?.any (· != ']') = true

instance (text : String) : Decidable (Unbracketed text) :=
  inferInstanceAs (Decidable (_ = true))

theorem Unbracketed.append {text : String} (unbracketed : Unbracketed text) (front : String) :
    Unbracketed (front ++ text) := by
  unfold Unbracketed at unbracketed ⊢
  rw [String.toList_append, List.getLast?_append]
  cases last : text.toList.getLast? with
  | none =>
    rw [last] at unbracketed
    cases unbracketed
  | some c =>
    rw [last] at unbracketed
    exact unbracketed

theorem Unbracketed.ne_arbitraryClass {text : String} (unbracketed : Unbracketed text)
    (scale value : String) : text ≠ arbitraryClass scale value := by
  rintro rfl
  have closing : (arbitraryClass scale value).toList.getLast? = some ']' := by
    rw [arbitraryClass, String.toList_append, List.getLast?_append]
    rfl
  rw [Unbracketed, closing] at unbracketed
  exact absurd unbracketed (by decide)

theorem arbitraryClass_inj {scale left right : String}
    (same : arbitraryClass scale left = arbitraryClass scale right) : left = right := by
  simpa [arbitraryClass, ← String.toList_inj] using same

theorem text_eq_of_pixelClass_eq {scale : String} {left right : Float}
    (same : pixelClass scale left = pixelClass scale right) :
    Decimal.text left = Decimal.text right := by
  simpa [← String.toList_inj] using arbitraryClass_inj same

end Bracket

theorem mem_of_lookup {α β : Type} [BEq α] [LawfulBEq α] {entries : List (α × β)} {key : α}
    {value : β} (found : entries.lookup key = some value) : (key, value) ∈ entries := by
  obtain ⟨before, after, rfl, -⟩ := List.lookup_eq_some_iff.mp found
  simp

section Scale

variable {steps : List (Nat × String)} {named : String → String} {scale : String}

/-- Steps of different sizes have different names, and none of them ends in a bracket. -/
structure ToldApart (steps : List (Nat × String)) (named : String → String) : Prop where
  distinct : ∀ first ∈ steps, ∀ second ∈ steps, named first.2 = named second.2 →
    first.1 = second.1
  unbracketed : ∀ step ∈ steps, Unbracketed (named step.2)

/-- The class of a value on a scale: the name of its step, or the value in brackets. -/
def steppedClass (steps : List (Nat × String)) (named : String → String) (scale : String)
    (value : Float) : String :=
  ((scaleStep? steps value).map named).getD (pixelClass scale value)

theorem exists_pixels {value : Float} {name : String} (found : scaleStep? steps value = some name) :
    ∃ pixels, wholePixels? value = some pixels ∧ (pixels, name) ∈ steps := by
  obtain ⟨pixels, whole, listed⟩ := Option.bind_eq_some_iff.mp found
  exact ⟨pixels, whole, mem_of_lookup listed⟩

theorem ToldApart.sameValue (apart : ToldApart steps named) {left right : Float}
    (same : steppedClass steps named scale left = steppedClass steps named scale right) :
    SameValue left right := by
  unfold steppedClass at same
  cases leftStep : scaleStep? steps left with
  | some leftName =>
    obtain ⟨leftPixels, leftWhole, leftListed⟩ := exists_pixels leftStep
    cases rightStep : scaleStep? steps right with
    | some rightName =>
      obtain ⟨rightPixels, rightWhole, rightListed⟩ := exists_pixels rightStep
      rw [leftStep, rightStep] at same
      have pixels : leftPixels = rightPixels := apart.distinct _ leftListed _ rightListed same
      exact sameValue_of_wholePixels? leftWhole (pixels ▸ rightWhole)
    | none =>
      rw [leftStep, rightStep] at same
      exact absurd same ((apart.unbracketed _ leftListed).ne_arbitraryClass _ _)
  | none =>
    cases rightStep : scaleStep? steps right with
    | some rightName =>
      obtain ⟨rightPixels, -, rightListed⟩ := exists_pixels rightStep
      rw [leftStep, rightStep] at same
      exact absurd same.symm ((apart.unbracketed _ rightListed).ne_arbitraryClass _ _)
    | none =>
      rw [leftStep, rightStep] at same
      exact sameValue_of_text_eq (text_eq_of_pixelClass_eq same)

theorem fontSizeClass_eq (size : Float) :
    fontSizeClass size = steppedClass fontSteps ("text-" ++ ·) "text" size := by
  unfold fontSizeClass steppedClass
  cases scaleStep? fontSteps size <;> rfl

theorem fontSteps_toldApart : ToldApart fontSteps ("text-" ++ ·) :=
  ⟨by decide, by decide⟩

theorem spacingClass_eq (scale : String) (value : Float) :
    spacingClass scale value = steppedClass spacingSteps (scale ++ "-" ++ ·) scale value := by
  unfold spacingClass steppedClass
  cases scaleStep? spacingSteps value <;> rfl

theorem spacingSteps_toldApart (scale : String) :
    ToldApart spacingSteps (scale ++ "-" ++ ·) := by
  constructor
  · have names : ∀ first ∈ spacingSteps, ∀ second ∈ spacingSteps, first.2 = second.2 →
        first.1 = second.1 := by decide
    intro first firstListed second secondListed same
    have name : first.2 = second.2 := by simpa [← String.toList_inj] using same
    exact names first firstListed second secondListed name
  · have names : ∀ step ∈ spacingSteps, Unbracketed step.2 := by decide
    exact fun step listed => (names step listed).append _

theorem borderRadiusClass_eq (radius : Float) :
    borderRadiusClass radius = steppedClass radiusSteps id "rounded" radius := by
  rw [borderRadiusClass, steppedClass, Option.map_id_fun, id]

theorem radiusSteps_toldApart : ToldApart radiusSteps id :=
  ⟨by decide, by decide⟩

end Scale

section Color

variable {color other name : String} (scale : String)

/-- The palette has the color, in whatever case its letters are. -/
def InPalette (color : String) : Prop := lowerAscii color ∈ palette.map Prod.fst

theorem inPalette_iff : InPalette color ↔ ∃ name, paletteName? color = some name := by
  rw [← Option.ne_none_iff_exists', paletteName?, ne_eq, List.lookup_eq_none_iff]
  simp [InPalette]

theorem colorClass_of_name (found : paletteName? color = some name) :
    colorClass scale color = scale ++ "-" ++ name := by
  rw [colorClass, found]

theorem colorClass_of_no_name (absent : paletteName? color = none) :
    colorClass scale color = arbitraryClass scale color := by
  rw [colorClass, absent]

theorem colorClass_of_name_unbracketed (found : paletteName? color = some name) :
    Unbracketed (colorClass scale color) := by
  have names : ∀ entry ∈ palette, Unbracketed entry.2 := by decide
  rw [colorClass_of_name scale found]
  exact (names _ (mem_of_lookup found)).append _

theorem lowerAscii_eq_of_name (first : paletteName? color = some name)
    (second : paletteName? other = some name) : lowerAscii color = lowerAscii other := by
  have distinct : ∀ entry ∈ palette, ∀ next ∈ palette, entry.2 = next.2 → entry.1 = next.1 := by
    decide
  exact distinct _ (mem_of_lookup first) _ (mem_of_lookup second) rfl

theorem same_color_of_colorClass_eq (same : colorClass scale color = colorClass scale other) :
    color = other ∨ InPalette color ∧ InPalette other ∧ lowerAscii color = lowerAscii other := by
  cases first : paletteName? color with
  | some colorName =>
    cases second : paletteName? other with
    | some otherName =>
      rw [colorClass_of_name scale first, colorClass_of_name scale second] at same
      have names : colorName = otherName := by simpa [← String.toList_inj] using same
      subst names
      exact .inr ⟨inPalette_iff.mpr ⟨_, first⟩, inPalette_iff.mpr ⟨_, second⟩,
        lowerAscii_eq_of_name first second⟩
    | none =>
      have ends := colorClass_of_name_unbracketed scale first
      rw [colorClass_of_no_name scale second] at same
      exact absurd same (ends.ne_arbitraryClass scale other)
  | none =>
    rw [colorClass_of_no_name scale first] at same
    cases second : paletteName? other with
    | some otherName =>
      have ends := colorClass_of_name_unbracketed scale second
      exact absurd same.symm (ends.ne_arbitraryClass scale color)
    | none =>
      rw [colorClass_of_no_name scale second] at same
      exact .inl (arbitraryClass_inj same)

theorem colorClass_eq_iff :
    colorClass scale color = colorClass scale other ↔
      color = other ∨
        InPalette color ∧ InPalette other ∧ lowerAscii color = lowerAscii other := by
  constructor
  · exact same_color_of_colorClass_eq scale
  · rintro (rfl | ⟨listed, -, sameLetters⟩)
    · rfl
    · obtain ⟨name, found⟩ := inPalette_iff.mp listed
      have foundOther : paletteName? other = some name := by
        rw [← found, paletteName?, paletteName?, sameLetters]
      rw [colorClass_of_name scale found, colorClass_of_name scale foundOther]

end Color

/-- The classes of a scale tell values apart that differ as numbers, and the class of a color tells
the color, up to the case of its letters if it is in the palette. Nothing is assumed of the decimal
text of a double: that it tells doubles apart is `Decimal.eq_of_text_eq`. -/
theorem classes_tell_values_apart (scale : String) :
    (∀ left right, spacingClass scale left = spacingClass scale right → SameValue left right) ∧
    (∀ left right, fontSizeClass left = fontSizeClass right → SameValue left right) ∧
    (∀ left right, borderRadiusClass left = borderRadiusClass right → SameValue left right) ∧
    ∀ color other, colorClass scale color = colorClass scale other ↔
      color = other ∨
        InPalette color ∧ InPalette other ∧ lowerAscii color = lowerAscii other := by
  refine ⟨fun left right same => ?_, fun left right same => ?_, fun left right same => ?_,
    fun color other => colorClass_eq_iff scale⟩
  · rw [spacingClass_eq, spacingClass_eq] at same
    exact (spacingSteps_toldApart scale).sameValue same
  · rw [fontSizeClass_eq, fontSizeClass_eq] at same
    exact fontSteps_toldApart.sameValue same
  · rw [borderRadiusClass_eq, borderRadiusClass_eq] at same
    exact radiusSteps_toldApart.sameValue same

/-- The two zeros are one number. They share a step where the scale has one for them. -/
example : spacingClass "p" 0 = spacingClass "p" (-0) ∧ fontSizeClass 0 ≠ fontSizeClass (-0) := by
  decide +kernel

end PageDesigner
