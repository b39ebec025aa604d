import PageDesigner.Document.Layout
import PageDesigner.Json.Record

/-!
Layouts and partial layouts as JSON. A layout leaves unset fields out; a partial layout writes them
as `null`.
-/

namespace PageDesigner

namespace Display

def name : Display → String
  | block => "block"
  | flex => "flex"

def choices : List (String × Display) := [block, flex].map fun display => (display.name, display)

def toJson (display : Display) : Json := .text display.name

def ofJson : Json → Decoded Display := Json.asChoice choices

end Display

namespace FlexDirection

def name : FlexDirection → String
  | row => "row"
  | column => "column"

def choices : List (String × FlexDirection) :=
  [row, column].map fun direction => (direction.name, direction)

def toJson (direction : FlexDirection) : Json := .text direction.name

def ofJson : Json → Decoded FlexDirection := Json.asChoice choices

end FlexDirection

namespace JustifyContent

def name : JustifyContent → String
  | flexStart => "flex-start"
  | center => "center"
  | flexEnd => "flex-end"
  | spaceBetween => "space-between"

def choices : List (String × JustifyContent) :=
  [flexStart, center, flexEnd, spaceBetween].map fun justify => (justify.name, justify)

def toJson (justify : JustifyContent) : Json := .text justify.name

def ofJson : Json → Decoded JustifyContent := Json.asChoice choices

end JustifyContent

namespace AlignItems

def name : AlignItems → String
  | flexStart => "flex-start"
  | center => "center"
  | flexEnd => "flex-end"
  | stretch => "stretch"

def choices : List (String × AlignItems) :=
  [flexStart, center, flexEnd, stretch].map fun align => (align.name, align)

def toJson (align : AlignItems) : Json := .text align.name

def ofJson : Json → Decoded AlignItems := Json.asChoice choices

end AlignItems

namespace Layout

def toJson (layout : Layout) : Json :=
  .object <|
    [("x", .ofFloat layout.x), ("y", .ofFloat layout.y), ("width", .ofFloat layout.width),
      ("height", .ofFloat layout.height)] ++
    Json.present "display" Display.toJson layout.display ++
    Json.present "flexDirection" FlexDirection.toJson layout.flexDirection ++
    Json.present "justifyContent" JustifyContent.toJson layout.justifyContent ++
    Json.present "alignItems" AlignItems.toJson layout.alignItems ++
    Json.present "gap" Json.ofFloat layout.gap

def fields : Fields Layout :=
  mk <$> .required "x" Json.asFloat <*> .required "y" Json.asFloat
    <*> .required "width" Json.asFloat <*> .required "height" Json.asFloat
    <*> .optional "display" Display.ofJson <*> .optional "flexDirection" FlexDirection.ofJson
    <*> .optional "justifyContent" JustifyContent.ofJson
    <*> .optional "alignItems" AlignItems.ofJson <*> .optional "gap" Json.asFloat

def ofJson : Json → Decoded Layout := fields.decode

end Layout

namespace LayoutPatch

def toJson (patch : LayoutPatch) : Json :=
  .object
    [("x", .ofOption .ofFloat patch.x), ("y", .ofOption .ofFloat patch.y),
      ("width", .ofOption .ofFloat patch.width), ("height", .ofOption .ofFloat patch.height),
      ("display", .ofOption Display.toJson patch.display),
      ("flexDirection", .ofOption FlexDirection.toJson patch.flexDirection),
      ("justifyContent", .ofOption JustifyContent.toJson patch.justifyContent),
      ("alignItems", .ofOption AlignItems.toJson patch.alignItems),
      ("gap", .ofOption .ofFloat patch.gap)]

def fields : Fields LayoutPatch :=
  mk <$> .optional "x" Json.asFloat <*> .optional "y" Json.asFloat
    <*> .optional "width" Json.asFloat <*> .optional "height" Json.asFloat
    <*> .optional "display" Display.ofJson <*> .optional "flexDirection" FlexDirection.ofJson
    <*> .optional "justifyContent" JustifyContent.ofJson
    <*> .optional "alignItems" AlignItems.ofJson <*> .optional "gap" Json.asFloat

def ofJson : Json → Decoded LayoutPatch := fields.decode

end LayoutPatch
end PageDesigner
