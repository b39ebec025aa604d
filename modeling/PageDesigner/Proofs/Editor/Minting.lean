import PageDesigner.Proofs.Editor.History
import PageDesigner.Proofs.Identity.Source

/-!
The ids that show up in a run are those that its source hands out one after the other, none left out
and none handed out twice.
-/

namespace PageDesigner

theorem Workspace.Commit.mints {workspace next : Workspace} {ids after : IdSource}
    {command : Command} (committed : workspace.Commit ids command next after) :
    ∃ count, ids.mintMany count = (command.mintedIds next, after) := by
  cases committed with
  | createProject name => exact ⟨3, rfl⟩
  | addPage name opened =>
    refine ⟨2, ?_⟩
    simp only [Command.mintedIds, withPages, List.getLast?_concat]
    rfl
  | _ => exact ⟨0, rfl⟩

namespace Session

variable {α : Type}

theorem event_mints (session : Session α) (action : Action α) :
    ∃ count, session.ids.mintMany count =
      ((session.event action).mintedIds, (session.event action).after.ids) := by
  cases action with
  | dispatch command =>
    cases done : session.workspace.apply session.ids command with
    | ok outcome =>
      rw [session.event_of_committed done]
      exact (Workspace.commit_of_apply done).mints
    | error reason =>
      rw [session.event_of_refused done]
      exact ⟨0, rfl⟩
  | mintId => exact ⟨1, rfl⟩
  | subscribe listener => exact ⟨0, rfl⟩
  | unsubscribe id => exact ⟨0, rfl⟩

theorem run_mints (session : Session α) (actions : List (Action α)) :
    session.ids.mintMany (session.mintedIds actions).length =
      (session.mintedIds actions, (session.run actions).1.ids) := by
  let Holds (past : List (Event α)) (current : Session α) : Prop :=
    ∃ count, session.ids.mintMany count = (past.flatMap Event.mintedIds, current.ids)
  have keeps : ∀ past current action, Holds past current →
      Holds (past ++ [current.event action]) (current.event action).after := by
    intro past current action ⟨count, minted⟩
    obtain ⟨more, fresh⟩ := current.event_mints action
    exact ⟨count + more, by simp [IdSource.mintMany_add, minted, fresh]⟩
  obtain ⟨count, minted⟩ := run_keeps Holds keeps session ⟨0, rfl⟩ actions
  have length : (session.mintedIds actions).length = count := by
    rw [mintedIds, ← IdSource.mintMany_length count session.ids, minted]
  rw [length]
  exact minted

theorem mintedIds_new (label : String) (actions : List (Action α)) :
    (new label).mintedIds actions =
      (IdSource.mintMany ((new label).mintedIds actions).length (IdSource.ofLabel label)).1 :=
  (congrArg Prod.fst ((new label).run_mints actions)).symm

end Session

end PageDesigner
