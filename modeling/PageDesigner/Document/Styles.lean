/-!
Visual attributes of a node. Every field may be unset, so styles are their own partial form.
-/

namespace PageDesigner

inductive FontWeight where
  | normal
  | medium
  | semibold
  | bold
  deriving DecidableEq, Repr

def FontWeight.name : FontWeight → String
  | normal => "normal"
  | medium => "medium"
  | semibold => "semibold"
  | bold => "bold"

structure Styles where
  backgroundColor : Option String := none
  color : Option String := none
  fontSize : Option Float := none
  fontWeight : Option FontWeight := none
  padding : Option Float := none
  borderRadius : Option Float := none
  borderWidth : Option Float := none
  borderColor : Option String := none
  opacity : Option Float := none
  deriving DecidableEq, Repr, Inhabited

/-- The fields that the patch sets replace the old ones. A merge never unsets a field. -/
def Styles.merge (styles patch : Styles) : Styles where
  backgroundColor := patch.backgroundColor.or styles.backgroundColor
  color := patch.color.or styles.color
  fontSize := patch.fontSize.or styles.fontSize
  fontWeight := patch.fontWeight.or styles.fontWeight
  padding := patch.padding.or styles.padding
  borderRadius := patch.borderRadius.or styles.borderRadius
  borderWidth := patch.borderWidth.or styles.borderWidth
  borderColor := patch.borderColor.or styles.borderColor
  opacity := patch.opacity.or styles.opacity

end PageDesigner
