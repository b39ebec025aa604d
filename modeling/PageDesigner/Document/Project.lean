import PageDesigner.Document.Node

/-!
A page owns one rooted tree of nodes, and a project owns a list of pages.
-/

namespace PageDesigner

/-- The frame that a new page starts with: 800 by 600, a column with a gap of 16, white, padded
by 24. -/
def defaultRoot (id : String) : Node :=
  ((Node.frame id "Root").withLayout
    { width := 800, height := 600, display := some .flex, flexDirection := some .column,
      gap := some 16 }).withStyles
    { backgroundColor := some "#ffffff", padding := some 24 }

structure Page where
  id : String
  name : String
  root : Node
  deriving DecidableEq, Repr

def Page.blank (id name rootId : String) : Page := ⟨id, name, defaultRoot rootId⟩

structure Project where
  id : String
  name : String
  pages : List Page
  deriving DecidableEq, Repr

namespace Project

def single (id name : String) (page : Page) : Project := ⟨id, name, [page]⟩

/-- The first page with the id. -/
def page? (project : Project) (id : String) : Option Page :=
  project.pages.find? fun page => page.id = id

/-- Changes the first page with the id, if there is one. -/
def modifyFirst (id : String) (change : Page → Page) : List Page → List Page
  | [] => []
  | page :: pages => if page.id = id then change page :: pages else page :: modifyFirst id change pages

def modifyPage (project : Project) (id : String) (change : Page → Page) : Project :=
  { project with pages := modifyFirst id change project.pages }

end Project
end PageDesigner
