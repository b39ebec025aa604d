import PageDesigner.Component.Scale
import PageDesigner.Document.Node

/-!
The utility classes of an element. Every field that is set gives its class, and unset fields give
none.
-/

namespace PageDesigner

def JustifyContent.className : JustifyContent → String
  | flexStart => "justify-start"
  | center => "justify-center"
  | flexEnd => "justify-end"
  | spaceBetween => "justify-between"

def AlignItems.className : AlignItems → String
  | flexStart => "items-start"
  | center => "items-center"
  | flexEnd => "items-end"
  | stretch => "items-stretch"

def sizeClass (scale : String) (size : Float) : List String :=
  if size != 0 then [pixelClass scale size] else []

namespace Layout

/-- Flex parameters count only inside a flex display. -/
def flexClasses (layout : Layout) : List String :=
  if layout.display = some .flex then
    ["flex"] ++ (if layout.flexDirection = some .column then ["flex-col"] else []) ++
      (layout.justifyContent.map JustifyContent.className).toList ++
      (layout.alignItems.map AlignItems.className).toList ++
      (layout.gap.map (pixelClass "gap")).toList
  else []

def classes (layout : Layout) : List String :=
  sizeClass "w" layout.width ++ sizeClass "h" layout.height ++ layout.flexClasses

end Layout

namespace Styles

/-- A border colour counts only beside a border width. -/
def borderClasses (styles : Styles) : List String :=
  match styles.borderWidth with
  | none => []
  | some width => pixelClass "border" width :: (styles.borderColor.map (colorClass "border")).toList

def opacityClass (opacity : Float) : List String :=
  if opacity != 1 then [arbitraryClass "opacity" (Decimal.text opacity)] else []

def classes (styles : Styles) : List String :=
  (styles.backgroundColor.map (colorClass "bg")).toList ++
    (styles.color.map (colorClass "text")).toList ++
    (styles.fontSize.map fontSizeClass).toList ++
    (styles.fontWeight.map fun weight => "font-" ++ weight.name).toList ++
    (styles.padding.map (spacingClass "p")).toList ++
    (styles.borderRadius.map borderRadiusClass).toList ++
    styles.borderClasses ++
    (styles.opacity.map opacityClass).getD []

end Styles

namespace Element

def classes (element : Element) : List String := element.layout.classes ++ element.styles.classes

def classNames (element : Element) : String := " ".intercalate element.classes

end Element
end PageDesigner
