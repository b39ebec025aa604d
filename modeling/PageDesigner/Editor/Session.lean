import PageDesigner.Editor.Execution
import PageDesigner.Editor.Listeners

/-!
An editing session: the single writer of its workspace. A committed command is followed by one call
of every listener with the workspace as it then stands; nothing else calls a listener.
-/

namespace PageDesigner

/-- A session whose listeners are of type `α`. Its label also seeds the ids it mints. -/
structure Session (α : Type) where
  label : String
  workspace : Workspace
  ids : IdSource
  listeners : Listeners α

inductive Action (α : Type) where
  | dispatch (command : Command)
  | mintId
  | subscribe (listener : α)
  | unsubscribe (id : SubscriptionId)

inductive Reply where
  | committed
  | rejected (reason : Rejection)
  | minted (id : String)
  | subscribed (id : SubscriptionId)
  | unsubscribed (wasPresent : Bool)
  deriving DecidableEq, Repr

/-- The listeners called during an action, each with the workspace it was given. -/
abbrev Calls (α : Type) := List (α × Workspace)

namespace Session

variable {α : Type}

def new (label : String) : Session α := ⟨label, {}, IdSource.ofLabel label, {}⟩

/-- The command works on the session's own workspace and ids, also when it ends in a rejection. -/
def dispatch (session : Session α) (command : Command) : Session α × Reply × Calls α :=
  let (answer, ⟨workspace, ids⟩) := command.execute.on ⟨session.workspace, session.ids⟩
  let after := { session with workspace, ids }
  match answer with
  | .ok () =>
    (after, .committed, session.listeners.toList.map fun listener => (listener, workspace))
  | .error reason => (after, .rejected reason, [])

def mintId (session : Session α) : Session α × Reply × Calls α :=
  let (id, ids) := session.ids.mint
  ({ session with ids }, .minted id, [])

def subscribe (session : Session α) (listener : α) : Session α × Reply × Calls α :=
  let (id, listeners) := session.listeners.add listener
  ({ session with listeners }, .subscribed id, [])

def unsubscribe (session : Session α) (id : SubscriptionId) : Session α × Reply × Calls α :=
  let (wasPresent, listeners) := session.listeners.remove id
  ({ session with listeners }, .unsubscribed wasPresent, [])

def step (session : Session α) : Action α → Session α × Reply × Calls α
  | .dispatch command => session.dispatch command
  | .mintId => session.mintId
  | .subscribe listener => session.subscribe listener
  | .unsubscribe id => session.unsubscribe id

/-- The session after the actions, with each action's reply and calls. -/
def run (session : Session α) : List (Action α) → Session α × List (Reply × Calls α)
  | [] => (session, [])
  | action :: actions =>
    let (next, reply) := session.step action
    let (last, replies) := next.run actions
    (last, reply :: replies)

end Session
end PageDesigner
