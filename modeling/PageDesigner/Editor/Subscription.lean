import PageDesigner.Editor.History

/-!
Who is subscribed at a moment of a run, told from the events before it, and what a listener hears.
-/

namespace PageDesigner

variable {α : Type}

namespace Event

/-- The listener that the event subscribes, under the id that is handed out for it. -/
def subscription? (event : Event α) : Option (SubscriptionId × α) :=
  match event.action, event.reply with
  | .subscribe listener, .subscribed id => some (id, listener)
  | _, _ => none

def unsubscribes (id : SubscriptionId) (event : Event α) : Bool :=
  match event.action with
  | .unsubscribe other => other = id
  | _ => false

def isCommitted (event : Event α) : Bool := event.reply = .committed

/-- The subscriptions that the events make. -/
def subscriptions (events : List (Event α)) : List (SubscriptionId × α) :=
  events.filterMap subscription?

/-- The subscriptions that the events make and that no later one of them ends, in the order in which
they are made. -/
def subscribers : List (Event α) → List (SubscriptionId × α)
  | [] => []
  | event :: later =>
    match event.subscription? with
    | some (id, listener) =>
      if later.any (unsubscribes id) then subscribers later else (id, listener) :: subscribers later
    | none => subscribers later

/-- The workspaces that the committed commands among the events lead to. -/
def commits (events : List (Event α)) : List Workspace :=
  (events.filter isCommitted).map fun event => event.after.workspace

/-- What an event owes to the subscribers that it meets. -/
def Serves (subscribers : List (SubscriptionId × α)) (event : Event α) : Prop :=
  match event.action with
  | .dispatch _ =>
    event.after.listeners.entries = subscribers ∧
      (event.reply = .committed ∧
          event.calls = subscribers.map (fun entry => (entry.2, event.after.workspace)) ∨
        event.isRejected = true ∧ event.calls = [])
  | .mintId => event.after.listeners.entries = subscribers ∧ event.calls = []
  | .subscribe listener => event.calls = [] ∧
      ∃ id, event.reply = .subscribed id ∧
        event.after.listeners.entries = subscribers ++ [(id, listener)]
  | .unsubscribe id => event.calls = [] ∧
      ((∃ front listener back, subscribers = front ++ (id, listener) :: back ∧
          event.reply = .unsubscribed true ∧ event.after.listeners.entries = front ++ back) ∨
        id ∉ subscribers.map Prod.fst ∧
          event.reply = .unsubscribed false ∧ event.after.listeners.entries = subscribers)

end Event

/-- What a listener is called with, one call after the other. -/
def heardBy [DecidableEq α] (listener : α) (calls : Calls α) : List Workspace :=
  (calls.filter fun call => call.1 = listener).map Prod.snd

end PageDesigner
