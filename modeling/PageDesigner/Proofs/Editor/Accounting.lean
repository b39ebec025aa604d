import PageDesigner.Proofs.Editor.Minting

/-!
Which event mints which ids. Only new projects, new pages and requests for an id draw on the source
of ids, each a fixed number of times and in a fixed order, so the ids of a run are numbered through
in the order in which they come into being.
-/

namespace PageDesigner

variable {α : Type}

/-- The source has handed out the ids that came into being, and no others. -/
def Event.Drawn (event : Event α) : Prop :=
  event.before.ids.mintMany event.mintedIds.length = (event.mintedIds, event.after.ids)

/-- What the ids of an event belong to: those of a project, its page and the page's root, those of a
page and its root, the one that was asked for, or nothing. -/
def Event.Accounted (event : Event α) : Prop :=
  match event.action with
  | .dispatch (.createProject _) =>
    event.reply = .committed ∧ ∃ project page,
      event.after.workspace.project = some project ∧ project.pages = [page] ∧
        event.mintedIds = [project.id, page.id, page.root.id]
  | .dispatch (.addPage _) =>
    (event.reply = .committed ∧ ∃ project page,
      event.before.workspace.project = some project ∧
        event.after.workspace.project = some { project with pages := project.pages ++ [page] } ∧
        event.mintedIds = [page.id, page.root.id]) ∨
    event.isRejected = true ∧ event.mintedIds = []
  | .mintId => ∃ id, event.reply = .minted id ∧ event.mintedIds = [id]
  | _ => event.mintedIds = []

namespace Session

theorem event_drawn (session : Session α) (action : Action α) :
    (session.event action).Drawn := by
  obtain ⟨count, minted⟩ := session.event_mints action
  have length : (session.event action).mintedIds.length = count := by
    rw [← IdSource.mintMany_length count session.ids, minted]
  rw [Event.Drawn, length]
  exact minted

theorem event_accounted (session : Session α) (action : Action α) :
    (session.event action).Accounted := by
  cases action with
  | dispatch command =>
    cases done : session.workspace.apply session.ids command with
    | ok outcome =>
      obtain ⟨next, source⟩ := outcome
      rw [session.event_of_committed done]
      cases Workspace.commit_of_apply done with
      | createProject name => exact ⟨rfl, _, _, rfl, rfl, rfl⟩
      | @addPage project name opened =>
        refine Or.inl ⟨rfl, project, (mintPage session.ids name).1, opened, rfl, ?_⟩
        simp only [Event.mintedIds, Command.mintedIds, Workspace.withPages, List.getLast?_concat]
        rfl
      | _ => rfl
    | error reason =>
      rw [session.event_of_refused done]
      cases command with
      | createProject name => cases done
      | addPage name => exact Or.inr ⟨rfl, rfl⟩
      | _ => rfl
  | mintId => exact ⟨_, rfl, rfl⟩
  | subscribe listener => rfl
  | unsubscribe id => rfl

/-- Every id of a run has the number of its place among those that came into being, as long as the
counter does not wrap around, and every event draws just the ids that it brings into being. -/
theorem minted_ids_accounted (label : String) (actions : List (Action α))
    (few : ((new label).mintedIds actions).length < UInt64.size) :
    let minted := (new label).mintedIds actions
    minted = (List.range' 1 minted.length).map (IdSource.idText (seedFor label)) ∧
      minted.Nodup ∧
      ∀ event ∈ (new label).history actions, event.Drawn ∧ event.Accounted := by
  intro minted
  have handedOut : minted = (IdSource.mintMany minted.length (.ofSeed (seedFor label))).1 :=
    mintedIds_new label actions
  refine ⟨?_, ?_, ?_⟩
  · rw [← IdSource.mintMany_ofSeed (seedFor label) minted.length few]
    exact handedOut
  · rw [handedOut]
    exact IdSource.mintMany_ofSeed_nodup (seedFor label) minted.length few
  · apply forall_history
    intro session action
    exact ⟨session.event_drawn action, session.event_accounted action⟩

/-- The rejected page draws no id, and neither does the deletion. -/
theorem ids_numbered_past_rejection :
    let actions : List (Action Unit) := [.dispatch (.addPage "Early"),
      .dispatch (.createProject "Site"), .mintId, .dispatch (.addPage "About"),
      .dispatch (.deletePage "0-2"), .mintId]
    (new "").mintedIds actions = ["0-1", "0-2", "0-3", "0-4", "0-5", "0-6", "0-7"] ∧
      ((new "").mintedIds actions).length < UInt64.size ∧ ((new "").mintedIds actions).Nodup := by
  intro actions
  have minted : (new "").mintedIds actions =
      ["0-1", "0-2", "0-3", "0-4", "0-5", "0-6", "0-7"] := by
    decide +kernel
  have few : ((new "").mintedIds actions).length < UInt64.size := by
    rw [minted]
    decide
  exact ⟨minted, few, (minted_ids_accounted "" actions few).2.1⟩

end Session
end PageDesigner
