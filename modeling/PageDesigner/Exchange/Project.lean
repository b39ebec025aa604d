import PageDesigner.Document.Project
import PageDesigner.Exchange.Node

/-!
Pages and projects as JSON.
-/

namespace PageDesigner

namespace Page

def toJson (page : Page) : Json :=
  .object [("id", .text page.id), ("name", .text page.name), ("root", page.root.toJson)]

def fields : Fields Page :=
  mk <$> .required "id" Json.asText <*> .required "name" Json.asText
    <*> .required "root" Node.ofJson

def ofJson : Json → Decoded Page := fields.decode

end Page

namespace Project

def toJson (project : Project) : Json :=
  .object
    [("id", .text project.id), ("name", .text project.name),
      ("pages", .array (project.pages.map Page.toJson))]

def fields : Fields Project :=
  mk <$> .required "id" Json.asText <*> .required "name" Json.asText
    <*> .required "pages" (Json.asList Page.ofJson)

def ofJson : Json → Decoded Project := fields.decode

end Project
end PageDesigner
