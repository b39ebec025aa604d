import PageDesigner.Document.Styles
import PageDesigner.Json.Record

/-!
Styles as JSON. Unset fields are left out.
-/

namespace PageDesigner

namespace FontWeight

def choices : List (String × FontWeight) :=
  [normal, medium, semibold, bold].map fun weight => (weight.name, weight)

def toJson (weight : FontWeight) : Json := .text weight.name

def ofJson : Json → Decoded FontWeight := Json.asChoice choices

end FontWeight

namespace Styles

def toJson (styles : Styles) : Json :=
  .object <|
    Json.present "backgroundColor" Json.text styles.backgroundColor ++
    Json.present "color" Json.text styles.color ++
    Json.present "fontSize" Json.ofFloat styles.fontSize ++
    Json.present "fontWeight" FontWeight.toJson styles.fontWeight ++
    Json.present "padding" Json.ofFloat styles.padding ++
    Json.present "borderRadius" Json.ofFloat styles.borderRadius ++
    Json.present "borderWidth" Json.ofFloat styles.borderWidth ++
    Json.present "borderColor" Json.text styles.borderColor ++
    Json.present "opacity" Json.ofFloat styles.opacity

def fields : Fields Styles :=
  mk <$> .optional "backgroundColor" Json.asText <*> .optional "color" Json.asText
    <*> .optional "fontSize" Json.asFloat <*> .optional "fontWeight" FontWeight.ofJson
    <*> .optional "padding" Json.asFloat <*> .optional "borderRadius" Json.asFloat
    <*> .optional "borderWidth" Json.asFloat <*> .optional "borderColor" Json.asText
    <*> .optional "opacity" Json.asFloat

def ofJson : Json → Decoded Styles := fields.decode

end Styles
end PageDesigner
