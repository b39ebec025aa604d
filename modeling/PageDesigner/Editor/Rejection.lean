/-!
Why a command is not carried out.
-/

namespace PageDesigner

inductive Rejection where
  | noProject
  | noCurrentPage
  | pageNotFound (id : String)
  | nodeNotFound (id : String)
  | lastPage
  | rootNode (id : String)
  | duplicateNodeId (id : String)
  | invalidZoom
  deriving DecidableEq, Repr

namespace Rejection

/-- A rejected command named something that is not there, would have broken the document, or needs
a project or page that is not open. -/
inductive Category where
  | notFound
  | invariantGuard
  | unsetState
  deriving DecidableEq, Repr

def category : Rejection → Category
  | noProject | noCurrentPage => .unsetState
  | pageNotFound _ | nodeNotFound _ => .notFound
  | lastPage | rootNode _ | duplicateNodeId _ | invalidZoom => .invariantGuard

def message : Rejection → String
  | noProject => "No project is open"
  | noCurrentPage => "No current page"
  | pageNotFound id => "Page not found: " ++ id
  | nodeNotFound id => "Node not found: " ++ id
  | lastPage => "Cannot delete the last page of a project"
  | rootNode id => "Cannot delete the root node: " ++ id
  | duplicateNodeId id => "Node id already exists on this page: " ++ id
  | invalidZoom => "Zoom must be a number"

end Rejection
end PageDesigner
