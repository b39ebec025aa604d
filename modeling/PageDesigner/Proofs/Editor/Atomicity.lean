import PageDesigner.Proofs.Editor.Execution
import PageDesigner.Proofs.Editor.History

/-!
Commands are atomic, although they are carried out field by field: a rejected command leaves the
desk as it was and calls no listener. A run from which all rejected commands are erased is
therefore what is left of the whole run without them.
-/

namespace PageDesigner

theorem Command.desk_unchanged {command : Command} {desk left : Desk} {reason : Rejection}
    (rejected : command.execute.on desk = (.error reason, left)) : left = desk := by
  rw [command.execute_eq] at rejected
  cases outcome : desk.workspace.apply desk.ids command with
  | ok applied =>
    rw [outcome] at rejected
    cases congrArg Prod.fst rejected
  | error why =>
    rw [outcome] at rejected
    exact (congrArg Prod.snd rejected).symm

namespace Session

variable {α : Type}

theorem dispatch_of_rejected {session : Session α} {command : Command} {reason : Rejection}
    (rejected : (session.dispatch command).2.1 = .rejected reason) :
    session.dispatch command = (session, .rejected reason, []) := by
  rw [dispatch_eq] at rejected ⊢
  cases outcome : session.workspace.apply session.ids command with
  | ok applied =>
    rw [outcome] at rejected
    cases rejected
  | error why =>
    rw [outcome] at rejected
    cases rejected
    rfl

/-- Only a dispatch can be rejected, and then it has no effect. -/
theorem event_of_rejected {session : Session α} {action : Action α}
    (rejected : (session.event action).isRejected = true) :
    (session.event action).after = session ∧ (session.event action).calls = [] ∧
      (session.event action).mintedIds = [] := by
  cases action with
  | dispatch command =>
    cases answer : (session.dispatch command).2.1 with
    | rejected reason =>
      have same := dispatch_of_rejected answer
      refine ⟨congrArg Prod.fst same, congrArg (fun result => result.2.2) same, ?_⟩
      cases command <;> simp [event, step, Event.mintedIds, answer]
    | _ => simp [event, step, Event.isRejected, answer] at rejected
  | _ => cases rejected

/-- The events of a run that are not rejections. -/
def accepted (session : Session α) (actions : List (Action α)) : List (Event α) :=
  (session.history actions).filter fun event => !event.isRejected

theorem accepted_cons_of_rejected {session : Session α} {action : Action α}
    (rejected : (session.event action).isRejected = true) (actions : List (Action α)) :
    session.accepted (action :: actions) = session.accepted actions := by
  have unchanged := (event_of_rejected rejected).1
  simp [accepted, history_cons, rejected, unchanged]

theorem accepted_cons_of_not_rejected {session : Session α} {action : Action α}
    (committed : (session.event action).isRejected = false) (actions : List (Action α)) :
    session.accepted (action :: actions) =
      session.event action :: (session.event action).after.accepted actions := by
  simp [accepted, history_cons, committed]

/-- The accepted actions alone have the accepted events as their whole history. -/
theorem run_accepted (session : Session α) (actions : List (Action α)) :
    session.history ((session.accepted actions).map Event.action) = session.accepted actions ∧
      (session.run ((session.accepted actions).map Event.action)).1 = (session.run actions).1 := by
  induction actions generalizing session with
  | nil => exact ⟨rfl, rfl⟩
  | cons action actions ih =>
    cases rejected : (session.event action).isRejected with
    | true =>
      rw [accepted_cons_of_rejected rejected, run_cons_state, (event_of_rejected rejected).1]
      exact ih session
    | false =>
      have tail := ih (session.event action).after
      rw [accepted_cons_of_not_rejected rejected, List.map_cons, run_cons_state]
      exact ⟨congrArg _ tail.1, tail.2⟩

/-- What rejected events have none of is collected alike with and without them. -/
theorem history_accepted_flatMap {β : Type} (part : Event α → List β)
    (silent : ∀ (session : Session α) (action : Action α),
      (session.event action).isRejected = true → part (session.event action) = [])
    (session : Session α) (actions : List (Action α)) :
    (session.history ((session.accepted actions).map Event.action)).flatMap part =
      (session.history actions).flatMap part := by
  rw [(session.run_accepted actions).1]
  induction actions generalizing session with
  | nil => rfl
  | cons action actions ih =>
    rw [history_cons, List.flatMap_cons, ← ih]
    cases rejected : (session.event action).isRejected with
    | true =>
      rw [accepted_cons_of_rejected rejected, silent session action rejected,
        (event_of_rejected rejected).1, List.nil_append]
    | false => rw [accepted_cons_of_not_rejected rejected, List.flatMap_cons]

end Session

/-- First a single command on any desk, then a dispatch, then a whole run of a session. -/
theorem rejections_have_no_effect {α : Type} :
    (∀ (command : Command) (desk left : Desk) (reason : Rejection),
      command.execute.on desk = (.error reason, left) → left = desk) ∧
    (∀ (session : Session α) (command : Command) (reason : Rejection),
      (session.dispatch command).2.1 = .rejected reason →
        session.dispatch command = (session, .rejected reason, [])) ∧
    ∀ (session : Session α) (actions : List (Action α)),
      let kept := (session.history actions).filter fun event => !event.isRejected
      let erased := kept.map Event.action
      (session.run erased).1 = (session.run actions).1 ∧
      (session.run erased).2 = kept.map (fun event => (event.reply, event.calls)) ∧
      session.history erased = kept ∧
      session.mintedIds erased = session.mintedIds actions ∧
      session.notifications erased = session.notifications actions := by
  refine ⟨fun _ _ _ _ => Command.desk_unchanged, fun _ _ _ => Session.dispatch_of_rejected, ?_⟩
  intro session actions kept erased
  obtain ⟨history, last⟩ := session.run_accepted actions
  refine ⟨last, ?_, history, ?_, ?_⟩
  · rw [Session.run_replies]
    exact congrArg _ history
  · exact session.history_accepted_flatMap Event.mintedIds
      (fun _ _ rejected => (Session.event_of_rejected rejected).2.2) actions
  · exact session.history_accepted_flatMap Event.calls
      (fun _ _ rejected => (Session.event_of_rejected rejected).2.1) actions

end PageDesigner
