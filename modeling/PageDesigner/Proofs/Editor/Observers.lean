import Mathlib.Data.List.Nodup
import PageDesigner.Editor.Subscription
import PageDesigner.Proofs.Editor.History

/-!
What a session owes its listeners. The entries of the registry are the subscriptions that the events
so far have made and not ended, so every commit reaches exactly those, and a listener hears of the
commits between its subscription and the end of it.
-/

namespace PageDesigner

variable {α : Type}

namespace Event

theorem subscriptions_append (past later : List (Event α)) :
    subscriptions (past ++ later) = subscriptions past ++ subscriptions later :=
  List.filterMap_append

theorem subscriptions_cons (event : Event α) (later : List (Event α)) :
    subscriptions (event :: later) = event.subscription?.toList ++ subscriptions later := by
  rw [subscriptions, List.filterMap_cons]
  cases event.subscription? <;> rfl

/-- An event first ends a subscription, if it does, and then adds its own. -/
theorem subscribers_append_singleton (past : List (Event α)) (event : Event α) :
    subscribers (past ++ [event]) =
      (subscribers past).filter (fun entry => !event.unsubscribes entry.1) ++
        event.subscription?.toList := by
  induction past with
  | nil =>
    cases made : event.subscription? <;> simp [subscribers, made]
  | cons first past ih =>
    rw [List.cons_append, subscribers, subscribers]
    cases first.subscription? with
    | none => exact ih
    | some made =>
      simp only [List.any_append, List.any_cons, List.any_nil, Bool.or_false, ih]
      cases past.any (unsubscribes made.1) with
      | true => rfl
      | false =>
        cases ends : event.unsubscribes made.1 <;> simp [ends]

theorem subscribers_sublist (events : List (Event α)) :
    (subscribers events).Sublist (subscriptions events) := by
  induction events with
  | nil => exact List.Sublist.slnil
  | cons event events ih =>
    rw [subscribers, subscriptions_cons]
    cases event.subscription? with
    | none => exact ih
    | some made =>
      simp only
      split
      · exact ih.cons made
      · exact ih.cons_cons made

theorem not_committed_of_unsubscribes {session : Session α} {action : Action α}
    {id : SubscriptionId} (ends : (session.event action).unsubscribes id = true) :
    (session.event action).isCommitted = false := by
  cases action with
  | unsubscribe other => rfl
  | _ => cases ends

theorem commits_cons (event : Event α) (later : List (Event α)) :
    commits (event :: later) =
      (if event.isCommitted then [event.after.workspace] else []) ++ commits later := by
  rw [commits, List.filter_cons]
  split
  · rfl
  · rfl

end Event

namespace Listeners

theorem remove_of_not_mem {listeners : Listeners α} {id : SubscriptionId}
    (absent : id ∉ listeners.entries.map Prod.fst) : listeners.remove id = (false, listeners) := by
  have others : ∀ entry ∈ listeners.entries, entry.1 ≠ id := by
    rintro entry member rfl
    exact absent (List.mem_map_of_mem member)
  have nothing : (listeners.entries.any fun entry => entry.1 = id) = false := by
    simpa [List.any_eq_false] using others
  have all : (listeners.entries.filter fun entry => entry.1 ≠ id) = listeners.entries := by
    simpa [List.filter_eq_self] using others
  rw [remove, nothing, all]

/-- Where no id occurs twice, a removal takes out one entry. -/
theorem remove_of_mem {listeners : Listeners α} {id : SubscriptionId}
    (distinct : (listeners.entries.map Prod.fst).Nodup)
    (member : id ∈ listeners.entries.map Prod.fst) :
    ∃ front listener back, listeners.entries = front ++ (id, listener) :: back ∧
      listeners.remove id = (true, { listeners with entries := front ++ back }) := by
  obtain ⟨entry, inside, same⟩ := List.mem_map.mp member
  obtain ⟨front, back, split⟩ := List.append_of_mem inside
  rw [split, List.map_append, List.map_cons, same, List.nodup_middle, List.nodup_cons,
    ← List.map_append] at distinct
  have others : ∀ other ∈ front ++ back, other.1 ≠ id := by
    rintro other beside rfl
    exact distinct.1 (List.mem_map_of_mem beside)
  rw [List.forall_mem_append] at others
  have present : (listeners.entries.any fun other => other.1 = id) = true :=
    List.any_eq_true.mpr ⟨entry, inside, decide_eq_true same⟩
  have left : (listeners.entries.filter fun other => other.1 ≠ id) = front ++ back := by
    rw [split, List.filter_append, List.filter_cons_of_neg (by simpa using same),
      List.filter_eq_self.mpr (by simpa using others.1),
      List.filter_eq_self.mpr (by simpa using others.2)]
  refine ⟨front, entry.2, back, ?_, ?_⟩
  · rw [split, ← same]
  · rw [remove, present, left]

end Listeners

namespace Session

theorem event_serves (session : Session α)
    (distinct : (session.listeners.entries.map Prod.fst).Nodup) (action : Action α) :
    (session.event action).Serves session.listeners.entries := by
  cases action with
  | dispatch command =>
    cases done : session.workspace.apply session.ids command with
    | ok outcome =>
      rw [session.event_of_committed done]
      exact ⟨rfl, Or.inl ⟨rfl, List.map_map⟩⟩
    | error reason =>
      rw [session.event_of_refused done]
      exact ⟨rfl, Or.inr ⟨rfl, rfl⟩⟩
  | mintId => exact ⟨rfl, rfl⟩
  | subscribe listener => exact ⟨rfl, _, rfl, rfl⟩
  | unsubscribe id =>
    refine ⟨rfl, ?_⟩
    by_cases member : id ∈ session.listeners.entries.map Prod.fst
    · obtain ⟨front, listener, back, split, removed⟩ := Listeners.remove_of_mem distinct member
      refine Or.inl ⟨front, listener, back, split, ?_, ?_⟩
      · exact congrArg (fun result => Reply.unsubscribed result.1) removed
      · exact congrArg (fun result => result.2.entries) removed
    · have kept := Listeners.remove_of_not_mem member
      refine Or.inr ⟨member, ?_, ?_⟩
      · exact congrArg (fun result => Reply.unsubscribed result.1) kept
      · exact congrArg (fun result => result.2.entries) kept

theorem event_listeners_of_dispatch (session : Session α) (command : Command) :
    (session.event (.dispatch command)).after.listeners = session.listeners := by
  cases done : session.workspace.apply session.ids command with
  | ok outcome => rw [session.event_of_committed done]
  | error reason => rw [session.event_of_refused done]

theorem event_entries (session : Session α) (action : Action α) :
    (session.event action).after.listeners.entries =
      session.listeners.entries.filter
          (fun entry => !(session.event action).unsubscribes entry.1) ++
        (session.event action).subscription?.toList := by
  cases action with
  | dispatch command =>
    have nothing : (session.event (.dispatch command)).subscription? = none := rfl
    rw [event_listeners_of_dispatch, nothing]
    simp [Event.unsubscribes, event]
  | mintId => simp [Event.unsubscribes, Event.subscription?, event, step, mintId]
  | subscribe listener =>
    simp [Event.unsubscribes, Event.subscription?, event, step, subscribe, Listeners.add]
  | unsubscribe id =>
    simp [Event.unsubscribes, Event.subscription?, event, step, unsubscribe, Listeners.remove,
      eq_comm]

theorem event_nextId (session : Session α) (action : Action α) :
    match (session.event action).subscription? with
    | some (id, _) => id = session.listeners.nextId ∧
        (session.event action).after.listeners.nextId = session.listeners.nextId + 1
    | none => (session.event action).after.listeners.nextId = session.listeners.nextId := by
  cases action with
  | dispatch command =>
    exact congrArg Listeners.nextId (session.event_listeners_of_dispatch command)
  | mintId => rfl
  | subscribe listener => exact ⟨rfl, rfl⟩
  | unsubscribe id => rfl

/-- The registry after the events: it holds the subscribers, and ids are handed out by number. -/
structure Registered (past : List (Event α)) (session : Session α) : Prop where
  entries : session.listeners.entries = Event.subscribers past
  nextId : session.listeners.nextId = UInt64.ofNat (Event.subscriptions past).length
  ids : (Event.subscriptions past).map Prod.fst =
    (List.range (Event.subscriptions past).length).map UInt64.ofNat

theorem Registered.event {past : List (Event α)} {session : Session α}
    (registered : Registered past session) (action : Action α) :
    Registered (past ++ [session.event action]) (session.event action).after := by
  obtain ⟨entries, nextId, ids⟩ := registered
  have counted := session.event_nextId action
  have single : Event.subscriptions [session.event action] =
      (session.event action).subscription?.toList := by
    rw [Event.subscriptions_cons]
    exact List.append_nil _
  constructor
  case entries => rw [event_entries, entries, Event.subscribers_append_singleton]
  case nextId =>
    rw [Event.subscriptions_append, single]
    cases made : (session.event action).subscription? with
    | none =>
      rw [made] at counted
      simpa [nextId] using counted
    | some entry =>
      rw [made] at counted
      simp [counted.2, nextId, UInt64.ofNat_add]
  case ids =>
    rw [Event.subscriptions_append, single, List.map_append, ids]
    cases made : (session.event action).subscription? with
    | none => simp
    | some entry =>
      rw [made] at counted
      simp [counted.1, nextId, List.range_succ]

theorem run_registered (label : String) (actions : List (Action α)) :
    Registered ((new label).history actions) ((new label).run actions).1 :=
  run_keeps Registered (fun _ _ action registered => registered.event action) (new label)
    ⟨rfl, rfl, rfl⟩ actions

theorem subscription_ids_nodup (label : String) (actions : List (Action α))
    (few : (Event.subscriptions ((new label).history actions)).length < UInt64.size) :
    ((Event.subscriptions ((new label).history actions)).map Prod.fst).Nodup := by
  rw [(run_registered label actions).ids]
  apply List.Nodup.map_on _ List.nodup_range
  intro left inLeft right inRight same
  rw [List.mem_range] at inLeft inRight
  have equal := congrArg UInt64.toNat same
  rwa [UInt64.toNat_ofNat_of_lt' (by omega), UInt64.toNat_ofNat_of_lt' (by omega)] at equal

theorem event_calls (session : Session α) (action : Action α) :
    (session.event action).calls =
      if (session.event action).isCommitted then
        session.listeners.entries.map fun entry =>
          (entry.2, (session.event action).after.workspace)
      else [] := by
  cases action with
  | dispatch command =>
    cases done : session.workspace.apply session.ids command with
    | ok outcome =>
      rw [session.event_of_committed done]
      exact List.map_map
    | error reason =>
      rw [session.event_of_refused done]
      rfl
  | mintId => rfl
  | subscribe listener => rfl
  | unsubscribe id => rfl

theorem notifications_append (session : Session α) (first later : List (Action α)) :
    session.notifications (first ++ later) =
      session.notifications first ++ (session.run first).1.notifications later := by
  rw [notifications, history_append, List.flatMap_append]
  rfl

theorem notifications_cons (session : Session α) (action : Action α) (actions : List (Action α)) :
    session.notifications (action :: actions) =
      (session.event action).calls ++ (session.event action).after.notifications actions := rfl

section Hearing

variable [DecidableEq α] {listener : α}

/-- The entries of one listener. -/
def entriesOf (listener : α) (session : Session α) : List (SubscriptionId × α) :=
  session.listeners.entries.filter fun entry => entry.2 = listener

theorem entriesOf_eq_nil {session : Session α}
    (absent : ∀ entry ∈ session.listeners.entries, entry.2 ≠ listener) :
    entriesOf listener session = [] := by
  simpa [entriesOf, List.filter_eq_nil_iff] using absent

theorem entriesOf_event (listener : α) (session : Session α) (action : Action α) :
    entriesOf listener (session.event action).after =
      (entriesOf listener session).filter
          (fun entry => !(session.event action).unsubscribes entry.1) ++
        (session.event action).subscription?.toList.filter fun entry => entry.2 = listener := by
  rw [entriesOf, event_entries, List.filter_append, List.filter_filter, entriesOf,
    List.filter_filter]
  simp only [Bool.and_comm]

/-- As long as a listener gets no further subscription, events can only end those that it has. -/
theorem entriesOf_event_of_never {session : Session α} {action : Action α}
    (never : ∀ entry ∈ (session.event action).subscription?.toList, entry.2 ≠ listener) :
    entriesOf listener (session.event action).after =
      (entriesOf listener session).filter
        fun entry => !(session.event action).unsubscribes entry.1 := by
  have nothing : ((session.event action).subscription?.toList.filter
      fun entry => entry.2 = listener) = [] := by
    simpa [List.filter_eq_nil_iff] using never
  rw [entriesOf_event, nothing, List.append_nil]

theorem heardBy_append (listener : α) (first later : Calls α) :
    heardBy listener (first ++ later) = heardBy listener first ++ heardBy listener later := by
  rw [heardBy, List.filter_append, List.map_append]
  rfl

/-- At a commit a listener is called once for each of its entries. -/
theorem heardBy_event (listener : α) (session : Session α) (action : Action α) :
    heardBy listener (session.event action).calls =
      if (session.event action).isCommitted then
        (entriesOf listener session).map fun _ => (session.event action).after.workspace
      else [] := by
  rw [event_calls]
  split
  · rw [heardBy, List.filter_map, List.map_map]
    rfl
  · rfl

theorem heardBy_event_of_absent {session : Session α} (absent : entriesOf listener session = [])
    (action : Action α) : heardBy listener (session.event action).calls = [] := by
  rw [heardBy_event, absent, List.map_nil, ite_self]

/-- A listener that is not subscribed and does not get subscribed hears nothing. -/
theorem heardBy_of_absent (session : Session α) (actions : List (Action α))
    (absent : entriesOf listener session = [])
    (never : ∀ entry ∈ Event.subscriptions (session.history actions), entry.2 ≠ listener) :
    heardBy listener (session.notifications actions) = [] := by
  induction actions generalizing session with
  | nil => rfl
  | cons action actions ih =>
    rw [history_cons, Event.subscriptions_cons, List.forall_mem_append] at never
    have still : entriesOf listener (session.event action).after = [] := by
      rw [entriesOf_event_of_never never.1, absent, List.filter_nil]
    rw [notifications_cons, heardBy_append, heardBy_event_of_absent absent, ih _ still never.2,
      List.append_nil]

/-- A listener with one subscription hears of every commit until the subscription ends. -/
theorem heardBy_of_subscribed (session : Session α) (actions : List (Action α))
    {id : SubscriptionId} (subscribed : entriesOf listener session = [(id, listener)])
    (never : ∀ entry ∈ Event.subscriptions (session.history actions), entry.2 ≠ listener) :
    heardBy listener (session.notifications actions) =
      Event.commits ((session.history actions).takeWhile fun event => !event.unsubscribes id) := by
  induction actions generalizing session with
  | nil => rfl
  | cons action actions ih =>
    rw [history_cons, Event.subscriptions_cons, List.forall_mem_append] at never
    have here := heardBy_event listener session action
    have after := entriesOf_event_of_never never.1
    rw [subscribed] at here after
    rw [notifications_cons, heardBy_append, here, history_cons]
    cases ends : (session.event action).unsubscribes id with
    | true =>
      -- The event that ends the subscription is no commit, and after it the listener is gone.
      rw [List.filter_cons_of_neg (by simp [ends]), List.filter_nil] at after
      rw [heardBy_of_absent _ actions after never.2, Event.not_committed_of_unsubscribes ends,
        List.takeWhile_cons_of_neg (by simp [ends])]
      rfl
    | false =>
      rw [List.filter_cons_of_pos (by simp [ends]), List.filter_nil] at after
      rw [ih _ after never.2, List.takeWhile_cons_of_pos (by simp [ends]), Event.commits_cons]
      rfl

/-- A listener that gets one subscription in a run hears of the commits from then on until the
subscription ends. -/
theorem heardBy_of_subscribed_once (label : String) {actions : List (Action α)}
    {past later : List (Event α)} {event : Event α} {id : SubscriptionId}
    (split : (new label).history actions = past ++ event :: later)
    (made : event.subscription? = some (id, listener))
    (once : ∀ entry ∈ Event.subscriptions (past ++ later), entry.2 ≠ listener) :
    heardBy listener ((new label).notifications actions) =
      Event.commits (later.takeWhile fun event => !event.unsubscribes id) := by
  obtain ⟨before, action, after, rfl, rfl, rfl, rfl⟩ := exists_split_of_history_eq split
  rw [Event.subscriptions_append, List.forall_mem_append] at once
  obtain ⟨notBefore, notAfter⟩ := once
  let reached := ((new label).run before).1
  have absent : entriesOf listener reached = [] := by
    apply entriesOf_eq_nil
    rw [(run_registered label before).entries]
    intro entry member
    exact notBefore entry ((Event.subscribers_sublist _).subset member)
  have subscribed : entriesOf listener (reached.event action).after = [(id, listener)] := by
    rw [entriesOf_event, absent, made]
    simp
  have earlier : heardBy listener ((new label).notifications before) = [] :=
    heardBy_of_absent (new label) before rfl notBefore
  rw [notifications_append, notifications_cons, heardBy_append, heardBy_append, earlier,
    heardBy_event_of_absent absent, heardBy_of_subscribed _ after subscribed notAfter]
  rfl

end Hearing

/-- At every moment of a run the registry holds the subscribers, and the next event serves them. -/
theorem event_of_run_serves (label : String) {actions : List (Action α)}
    (few : (Event.subscriptions ((new label).history actions)).length < UInt64.size)
    {past later : List (Event α)} {event : Event α}
    (split : (new label).history actions = past ++ event :: later) :
    event.before.listeners.entries = Event.subscribers past ∧
      event.Serves (Event.subscribers past) := by
  have handedOut := subscription_ids_nodup label actions few
  rw [split, Event.subscriptions_append, List.map_append] at handedOut
  obtain ⟨before, action, after, rfl, rfl, rfl, -⟩ := exists_split_of_history_eq split
  have entries := (run_registered label before).entries
  have distinct : ((Event.subscribers ((new label).history before)).map Prod.fst).Nodup :=
    handedOut.of_append_left.sublist ((Event.subscribers_sublist _).map Prod.fst)
  rw [← entries] at distinct ⊢
  exact ⟨rfl, event_serves _ distinct action⟩

/-- After every run, whatever ids are unsubscribed in it and however often. A listener that is given
to the session once hears of the commits between its subscription and the end of it. -/
theorem listeners_hear_commits [DecidableEq α] (label : String) (actions : List (Action α))
    (few : (Event.subscriptions ((new label).history actions)).length < UInt64.size) :
    let history := (new label).history actions
    ((Event.subscriptions history).map Prod.fst).Nodup ∧
    (∀ past event later, history = past ++ event :: later →
      event.before.listeners.entries = Event.subscribers past ∧
        event.Serves (Event.subscribers past)) ∧
    ∀ past event later id listener, history = past ++ event :: later →
      event.subscription? = some (id, listener) →
      (∀ entry ∈ Event.subscriptions (past ++ later), entry.2 ≠ listener) →
        heardBy listener ((new label).notifications actions) =
          Event.commits (later.takeWhile fun event => !event.unsubscribes id) := by
  intro history
  refine ⟨subscription_ids_nodup label actions few, ?_, ?_⟩
  · intro past event later split
    exact event_of_run_serves label few split
  · intro past event later id listener split made once
    exact heardBy_of_subscribed_once label split made once

/-- A listener that comes second and goes before the last commit, by an id that is given back twice,
hears of the two commits in between and not of the rejection. -/
theorem second_listener_hears_two_commits :
    let earlier : List (Action String) := [.subscribe "first", .dispatch (.setTool .frame)]
    let later : List (Action String) := [.dispatch (.createProject "Site"),
      .dispatch (.renamePage "elsewhere" "Lost"), .mintId, .unsubscribe 0,
      .dispatch (.setTool .text), .unsubscribe 1, .unsubscribe 1, .dispatch (.setTool .select)]
    let actions := earlier ++ .subscribe "second" :: later
    let history := (new "").history actions
    let event := ((new "").run earlier).1.event (.subscribe "second")
    let heard := heardBy "second" ((new "").notifications actions)
    (Event.subscriptions history).length < UInt64.size ∧
      ((Event.subscriptions history).map Prod.fst).Nodup ∧
      event.subscription? = some (1, "second") ∧
      heard = Event.commits ((event.after.history later).takeWhile
        fun event => !event.unsubscribes 1) ∧
      heard.map Workspace.tool = [.frame, .text] := by
  intro earlier later actions history event heard
  have few : (Event.subscriptions history).length < UInt64.size := by decide +kernel
  have made : event.subscription? = some (1, "second") := by decide +kernel
  have once : ∀ entry ∈ Event.subscriptions ((new "").history earlier ++ event.after.history later),
      entry.2 ≠ "second" := by
    decide +kernel
  have tools : heard.map Workspace.tool = [.frame, .text] := by decide +kernel
  have split : history = (new "").history earlier ++ event :: event.after.history later :=
    history_append (new "") earlier (.subscribe "second" :: later)
  obtain ⟨distinct, -, hears⟩ := listeners_hear_commits "" actions few
  exact ⟨few, distinct, made, hears _ event _ 1 "second" split made once, tools⟩

end Session

end PageDesigner
