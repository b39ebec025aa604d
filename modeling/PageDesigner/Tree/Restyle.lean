import PageDesigner.Tree.Edit

/-!
Edits of layouts and styles, carried out one after the other, and what every field is set to last.
-/

namespace PageDesigner

/-- The value that the last of the patches to set a field sets it to. -/
def lastValue {Patch Value : Type} (field : Patch → Option Value) (patches : List Patch) :
    Option Value :=
  (patches.filterMap field).getLast?

/-- Each field has the value it is set to last, or else the layout's own. -/
def Layout.lastSet (layout : Layout) (patches : List LayoutPatch) : Layout where
  x := (lastValue LayoutPatch.x patches).getD layout.x
  y := (lastValue LayoutPatch.y patches).getD layout.y
  width := (lastValue LayoutPatch.width patches).getD layout.width
  height := (lastValue LayoutPatch.height patches).getD layout.height
  display := (lastValue LayoutPatch.display patches).or layout.display
  flexDirection := (lastValue LayoutPatch.flexDirection patches).or layout.flexDirection
  justifyContent := (lastValue LayoutPatch.justifyContent patches).or layout.justifyContent
  alignItems := (lastValue LayoutPatch.alignItems patches).or layout.alignItems
  gap := (lastValue LayoutPatch.gap patches).or layout.gap

def Styles.lastSet (styles : Styles) (patches : List Styles) : Styles where
  backgroundColor := (lastValue Styles.backgroundColor patches).or styles.backgroundColor
  color := (lastValue Styles.color patches).or styles.color
  fontSize := (lastValue Styles.fontSize patches).or styles.fontSize
  fontWeight := (lastValue Styles.fontWeight patches).or styles.fontWeight
  padding := (lastValue Styles.padding patches).or styles.padding
  borderRadius := (lastValue Styles.borderRadius patches).or styles.borderRadius
  borderWidth := (lastValue Styles.borderWidth patches).or styles.borderWidth
  borderColor := (lastValue Styles.borderColor patches).or styles.borderColor
  opacity := (lastValue Styles.opacity patches).or styles.opacity

inductive Restyle where
  | layout (id : String) (patch : LayoutPatch)
  | styles (id : String) (patch : Styles)
  deriving DecidableEq, Repr

namespace Restyle

def target : Restyle → String
  | layout id _ => id
  | styles id _ => id

/-- Where no node has the id, the tree stays as it is. -/
def on : Restyle → Node → Node
  | layout id patch, root => (root.updateLayout id patch).getD root
  | styles id patch, root => (root.updateStyles id patch).getD root

def run (edits : List Restyle) (root : Node) : Node :=
  edits.foldl (fun tree edit => edit.on tree) root

def layoutPatch? (id : String) : Restyle → Option LayoutPatch
  | layout target patch => if target = id then some patch else none
  | styles _ _ => none

def stylesPatch? (id : String) : Restyle → Option Styles
  | layout _ _ => none
  | styles target patch => if target = id then some patch else none

/-- The element with what the edits of its id set last. -/
def written (edits : List Restyle) (element : Element) : Element :=
  { element with
    layout := element.layout.lastSet (edits.filterMap (layoutPatch? element.id))
    styles := element.styles.lastSet (edits.filterMap (stylesPatch? element.id)) }

/-- The edits are of different nodes or of different kinds. -/
def Apart : Restyle → Restyle → Prop
  | layout id _, layout other _ => id ≠ other
  | styles id _, styles other _ => id ≠ other
  | layout _ _, styles _ _ => True
  | styles _ _, layout _ _ => True

end Restyle
end PageDesigner
