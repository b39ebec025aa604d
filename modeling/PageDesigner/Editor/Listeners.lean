/-!
Listeners in the order of their subscription, each under an id that is handed out once.
-/

namespace PageDesigner

abbrev SubscriptionId := UInt64

structure Listeners (α : Type) where
  nextId : SubscriptionId := 0
  entries : List (SubscriptionId × α) := []

namespace Listeners

variable {α : Type}

def add (listeners : Listeners α) (listener : α) : SubscriptionId × Listeners α :=
  (listeners.nextId,
    ⟨listeners.nextId + 1, listeners.entries ++ [(listeners.nextId, listener)]⟩)

/-- Also says whether the id was subscribed. -/
def remove (listeners : Listeners α) (id : SubscriptionId) : Bool × Listeners α :=
  (listeners.entries.any fun entry => entry.1 = id,
    { listeners with entries := listeners.entries.filter fun entry => entry.1 ≠ id })

def size (listeners : Listeners α) : Nat := listeners.entries.length

def toList (listeners : Listeners α) : List α := listeners.entries.map Prod.snd

/-- Listeners have no text of their own, so only their number is told. -/
def summary (listeners : Listeners α) : String :=
  "Listeners \x7b count: " ++ Nat.repr listeners.size ++ " \x7d"

end Listeners
end PageDesigner
