/-!
Position, size and flex parameters of a node, and partial layouts that leave fields as they are.
-/

namespace PageDesigner

inductive Display where
  | block
  | flex
  deriving DecidableEq, Repr

inductive FlexDirection where
  | row
  | column
  deriving DecidableEq, Repr

inductive JustifyContent where
  | flexStart
  | center
  | flexEnd
  | spaceBetween
  deriving DecidableEq, Repr

inductive AlignItems where
  | flexStart
  | center
  | flexEnd
  | stretch
  deriving DecidableEq, Repr

/-- An unset field is not the same as zero. -/
structure Layout where
  x : Float := 0
  y : Float := 0
  width : Float := 0
  height : Float := 0
  display : Option Display := none
  flexDirection : Option FlexDirection := none
  justifyContent : Option JustifyContent := none
  alignItems : Option AlignItems := none
  gap : Option Float := none
  deriving DecidableEq, Repr, Inhabited

structure LayoutPatch where
  x : Option Float := none
  y : Option Float := none
  width : Option Float := none
  height : Option Float := none
  display : Option Display := none
  flexDirection : Option FlexDirection := none
  justifyContent : Option JustifyContent := none
  alignItems : Option AlignItems := none
  gap : Option Float := none
  deriving DecidableEq, Repr, Inhabited

/-- The fields that the patch sets replace the layout's. -/
def Layout.merge (layout : Layout) (patch : LayoutPatch) : Layout where
  x := patch.x.getD layout.x
  y := patch.y.getD layout.y
  width := patch.width.getD layout.width
  height := patch.height.getD layout.height
  display := patch.display.or layout.display
  flexDirection := patch.flexDirection.or layout.flexDirection
  justifyContent := patch.justifyContent.or layout.justifyContent
  alignItems := patch.alignItems.or layout.alignItems
  gap := patch.gap.or layout.gap

end PageDesigner
