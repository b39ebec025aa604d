import PageDesigner.Editor.Session

/-!
What happened in a session, action by action, and the ids that were minted on the way.
-/

namespace PageDesigner

/-- One action of a run, with the sessions before and after it. -/
structure Event (α : Type) where
  before : Session α
  action : Action α
  reply : Reply
  calls : Calls α
  after : Session α

def Page.ids (page : Page) : List String := [page.id, page.root.id]

/-- The ids that a committed command brings into being, in the order in which they are minted: those
of a new project with its pages, or those of the page added last. -/
def Command.mintedIds (command : Command) (after : Workspace) : List String :=
  match command, after.project with
  | .createProject _, some project => project.id :: project.pages.flatMap Page.ids
  | .addPage _, some project => (project.pages.getLast?.map Page.ids).getD []
  | _, _ => []

namespace Event

variable {α : Type}

def isRejected (event : Event α) : Bool :=
  match event.reply with
  | .rejected _ => true
  | _ => false

def mintedIds (event : Event α) : List String :=
  match event.action, event.reply with
  | .dispatch command, .committed => command.mintedIds event.after.workspace
  | _, .minted id => [id]
  | _, _ => []

end Event

namespace Session

variable {α : Type}

def event (session : Session α) (action : Action α) : Event α :=
  let (after, reply, calls) := session.step action
  ⟨session, action, reply, calls, after⟩

def history (session : Session α) : List (Action α) → List (Event α)
  | [] => []
  | action :: actions =>
    let event := session.event action
    event :: event.after.history actions

def mintedIds (session : Session α) (actions : List (Action α)) : List String :=
  (session.history actions).flatMap Event.mintedIds

/-- The calls of listeners, one after the other. -/
def notifications (session : Session α) (actions : List (Action α)) : Calls α :=
  (session.history actions).flatMap Event.calls

end Session
end PageDesigner
