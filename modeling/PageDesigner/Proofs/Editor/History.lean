import PageDesigner.Editor.History
import PageDesigner.Proofs.Editor.Commit
import PageDesigner.Proofs.Editor.Execution

/-!
Runs and their histories. A property of sessions that may look back on the events so far holds after
every run if one event keeps it.
-/

namespace PageDesigner.Session

variable {α : Type}

theorem history_cons (session : Session α) (action : Action α) (actions : List (Action α)) :
    session.history (action :: actions) =
      session.event action :: (session.event action).after.history actions := rfl

theorem run_cons_state (session : Session α) (action : Action α) (actions : List (Action α)) :
    (session.run (action :: actions)).1 = ((session.event action).after.run actions).1 := rfl

theorem history_append (session : Session α) (first later : List (Action α)) :
    session.history (first ++ later) =
      session.history first ++ (session.run first).1.history later := by
  induction first generalizing session with
  | nil => rfl
  | cons action first ih =>
    rw [List.cons_append, history_cons, history_cons, ih, List.cons_append, run_cons_state]

/-- Every event of a history is that of some action, in the session that the actions before it
lead to. -/
theorem exists_split_of_mem_history {session : Session α} {actions : List (Action α)}
    {event : Event α} (member : event ∈ session.history actions) :
    ∃ past action later, actions = past ++ action :: later ∧
      event = (session.run past).1.event action := by
  induction actions generalizing session with
  | nil => cases member
  | cons action actions ih =>
    rcases List.mem_cons.mp member with rfl | inLater
    · exact ⟨[], action, actions, rfl, rfl⟩
    · obtain ⟨past, other, later, rfl, same⟩ := ih inLater
      exact ⟨action :: past, other, later, rfl, same⟩

/-- An event of a history, with the events before it and those after it, splits the run in three. -/
theorem exists_split_of_history_eq {session : Session α} {actions : List (Action α)}
    {past later : List (Event α)} {event : Event α}
    (split : session.history actions = past ++ event :: later) :
    ∃ before action after, actions = before ++ action :: after ∧ session.history before = past ∧
      (session.run before).1.event action = event ∧ event.after.history after = later := by
  induction past generalizing session actions with
  | nil =>
    cases actions with
    | nil => cases split
    | cons action actions =>
      rw [history_cons, List.nil_append, List.cons.injEq] at split
      obtain ⟨rfl, rest⟩ := split
      exact ⟨[], action, actions, rfl, rfl, rfl, rest⟩
  | cons first past ih =>
    cases actions with
    | nil => cases split
    | cons action actions =>
      rw [history_cons, List.cons_append, List.cons.injEq] at split
      obtain ⟨rfl, rest⟩ := split
      obtain ⟨before, next, after, rfl, sofar, here, afterwards⟩ := ih rest
      refine ⟨action :: before, next, after, rfl, ?_, here, afterwards⟩
      rw [history_cons, sofar]

/-- The history holds the replies and calls of the run. -/
theorem run_replies (session : Session α) (actions : List (Action α)) :
    (session.run actions).2 =
      (session.history actions).map fun event => (event.reply, event.calls) := by
  induction actions generalizing session with
  | nil => rfl
  | cons action actions ih => exact congrArg _ (ih (session.event action).after)

/-- What holds of every single event holds of all in a history. -/
theorem forall_history {Holds : Event α → Prop}
    (each : ∀ (session : Session α) action, Holds (session.event action)) (session : Session α)
    (actions : List (Action α)) : ∀ event ∈ session.history actions, Holds event := by
  induction actions generalizing session with
  | nil => exact List.forall_mem_nil _
  | cons action actions ih =>
    rw [history_cons, List.forall_mem_cons]
    exact ⟨each session action, ih (session.event action).after⟩

theorem event_of_committed (session : Session α) {command : Command} {workspace : Workspace}
    {ids : IdSource} (done : session.workspace.apply session.ids command = .ok (workspace, ids)) :
    session.event (.dispatch command) =
      ⟨session, .dispatch command, .committed,
        session.listeners.toList.map fun listener => (listener, workspace),
        { session with workspace, ids }⟩ := by
  simp [event, step, dispatch_eq, done]

theorem event_of_refused (session : Session α) {command : Command} {reason : Rejection}
    (refused : session.workspace.apply session.ids command = .error reason) :
    session.event (.dispatch command) =
      ⟨session, .dispatch command, .rejected reason, [], session⟩ := by
  simp [event, step, dispatch_eq, refused]

theorem dispatch_of_apply {session : Session α} {command : Command} {workspace : Workspace}
    {ids : IdSource} (done : session.workspace.apply session.ids command = .ok (workspace, ids)) :
    (session.dispatch command).2.1 = .committed ∧
      (session.dispatch command).1 = { session with workspace, ids } := by
  simp only [dispatch_eq, done, and_self]

theorem apply_of_committed {session : Session α} {command : Command}
    (committed : (session.dispatch command).2.1 = .committed) :
    ∃ workspace ids, session.workspace.apply session.ids command = .ok (workspace, ids) := by
  cases done : session.workspace.apply session.ids command with
  | ok outcome => exact ⟨outcome.1, outcome.2, rfl⟩
  | error reason =>
    rw [dispatch_eq, done] at committed
    cases committed

theorem commit_of_committed {session : Session α} {command : Command}
    (committed : (session.dispatch command).2.1 = .committed) :
    session.workspace.Commit session.ids command (session.dispatch command).1.workspace
      (session.dispatch command).1.ids := by
  obtain ⟨workspace, ids, done⟩ := apply_of_committed committed
  rw [(dispatch_of_apply done).2]
  exact Workspace.commit_of_apply done

/-- What one event keeps, a run keeps. -/
theorem run_keeps (Holds : List (Event α) → Session α → Prop)
    (keeps : ∀ past session action, Holds past session →
      Holds (past ++ [session.event action]) (session.event action).after)
    (session : Session α) (start : Holds [] session) (actions : List (Action α)) :
    Holds (session.history actions) (session.run actions).1 := by
  -- The events so far are generalized, since the induction moves the session along.
  suffices general : ∀ past session, Holds past session →
      Holds (past ++ session.history actions) (session.run actions).1 from general [] session start
  induction actions with
  | nil =>
    intro past session holds
    rwa [history, List.append_nil]
  | cons action actions ih =>
    intro past session holds
    have later := ih _ _ (keeps past session action holds)
    rwa [List.append_assoc] at later

end PageDesigner.Session
