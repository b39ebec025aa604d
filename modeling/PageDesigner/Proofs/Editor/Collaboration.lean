import PageDesigner.Proofs.Editor.StoredIds

/-!
Collaborators who ask the session for the ids of their nodes. As long as everybody brings in only
ids that were asked for and not brought in before, no two things in the document share an id and
nobody is refused for an id that is taken.
-/

namespace PageDesigner

variable {α : Type}

namespace Event

/-- The id that the session gave to a collaborator. -/
def requestedIds (event : Event α) : List String :=
  match event.reply with
  | .minted id => [id]
  | _ => []

/-- The ids of the nodes that are to go into the document. -/
def offeredIds (event : Event α) : List String :=
  match event.action with
  | .dispatch command => command.broughtIds
  | _ => []

def insertedIds (event : Event α) : List String :=
  if event.reply = .committed then event.offeredIds else []

/-- The ids of an insertion differ from each other, were all asked for, and came with no insertion
before. -/
def OffersRequested (past : List (Event α)) (event : Event α) : Prop :=
  event.offeredIds.Nodup ∧ ∀ id ∈ event.offeredIds,
    id ∈ past.flatMap requestedIds ∧ id ∉ past.flatMap insertedIds

instance (past : List (Event α)) (event : Event α) : Decidable (event.OffersRequested past) :=
  inferInstanceAs (Decidable (_ ∧ _))

end Event

/-- Every insertion among the events, which come after the past, offers ids that were asked for. -/
def Collaborative (past : List (Event α)) : List (Event α) → Prop
  | [] => True
  | event :: later => event.OffersRequested past ∧ Collaborative (past ++ [event]) later

def decideCollaborative : (past events : List (Event α)) → Decidable (Collaborative past events)
  | _, [] => .isTrue trivial
  | past, event :: later =>
    have := decideCollaborative (past ++ [event]) later
    inferInstanceAs (Decidable (event.OffersRequested past ∧ Collaborative (past ++ [event]) later))

instance (past events : List (Event α)) : Decidable (Collaborative past events) :=
  decideCollaborative past events

namespace Collaborative

variable {past events first later : List (Event α)} {event : Event α}

theorem append (collaborative : Collaborative past (first ++ later)) :
    Collaborative past first ∧ Collaborative (past ++ first) later := by
  induction first generalizing past with
  | nil =>
    rw [List.append_nil]
    exact ⟨trivial, collaborative⟩
  | cons event first ih =>
    obtain ⟨offers, rest⟩ := collaborative
    obtain ⟨inFirst, inLater⟩ := ih rest
    rw [List.append_assoc] at inLater
    exact ⟨⟨offers, inFirst⟩, inLater⟩

/-- What was inserted was asked for, and inserted once. -/
theorem inserted (collaborative : Collaborative past events)
    (distinct : (past.flatMap Event.insertedIds).Nodup)
    (requested : ∀ id ∈ past.flatMap Event.insertedIds, id ∈ past.flatMap Event.requestedIds) :
    ((past ++ events).flatMap Event.insertedIds).Nodup ∧
      ∀ id ∈ (past ++ events).flatMap Event.insertedIds,
        id ∈ (past ++ events).flatMap Event.requestedIds := by
  induction events generalizing past with
  | nil =>
    rw [List.append_nil]
    exact ⟨distinct, requested⟩
  | cons event later ih =>
    obtain ⟨⟨apart, offered⟩, rest⟩ := collaborative
    have insertedOffered : event.insertedIds = event.offeredIds ∨ event.insertedIds = [] := by
      rw [Event.insertedIds]
      split
      · exact Or.inl rfl
      · exact Or.inr rfl
    have step := ih rest
    rw [List.append_assoc, List.singleton_append] at step
    apply step
    · rw [List.flatMap_append, List.flatMap_singleton]
      rcases insertedOffered with all | none
      · rw [all, List.nodup_append']
        refine ⟨distinct, apart, ?_⟩
        intro id before now
        exact (offered id now).2 before
      · rwa [none, List.append_nil]
    · intro id member
      rw [List.flatMap_append, List.flatMap_singleton] at member ⊢
      apply List.mem_append_left
      rcases List.mem_append.mp member with before | now
      · exact requested id before
      · rcases insertedOffered with all | none
        · rw [all] at now
          exact (offered id now).1
        · rw [none] at now
          cases now

end Collaborative

namespace Workspace

variable {workspace : Workspace}

theorem addNode_duplicate {node : Node} {parentId : Option String} {id : String}
    (refused : workspace.addNode node parentId = .error (.duplicateNodeId id)) :
    node.id = id ∧ ∃ page, workspace.page? = some page ∧ page.root.contains id = true := by
  unfold addNode at refused
  split at refused
  · cases refused
  · rename_i page shown
    simp only at refused
    split at refused
    · cases refused
    · split at refused
      · rename_i present
        cases refused
        exact ⟨rfl, page, shown, present⟩
      · cases refused

theorem insertion_of_duplicate {ids : IdSource} {command : Command} {id : String}
    (refused : workspace.apply ids command = .error (.duplicateNodeId id)) :
    ∃ node parentId page, command = .addNode node parentId ∧ node.id = id ∧
      workspace.page? = some page ∧ page.root.contains id = true := by
  cases command with
  | addNode node parentId =>
    cases outcome : workspace.addNode node parentId with
    | ok next => simp [apply, outcome, Except.map] at refused
    | error reason =>
      have same : reason = .duplicateNodeId id := by
        simpa [apply, outcome, Except.map] using refused
      obtain ⟨taken, page, shown, present⟩ := addNode_duplicate (same ▸ outcome)
      exact ⟨node, parentId, page, rfl, taken, shown, present⟩
  | _ =>
    -- No other command has an id to compare with those on the page.
    simp only [apply, addPage, deletePage, renamePage, setCurrentPage, editNode, deleteNode,
      setZoom] at refused
    grind [Except.map]

end Workspace

namespace Session

/-- The ids in the document, and those that were asked for, are covered by those that were minted
and those that were inserted. -/
def Balanced (past : List (Event α)) (session : Session α) : Prop :=
  ∀ id, session.workspace.allIds.count id + (past.flatMap Event.requestedIds).count id ≤
    (past.flatMap Event.mintedIds).count id + (past.flatMap Event.insertedIds).count id

theorem event_balance (session : Session α) (action : Action α) (id : String) :
    let event := session.event action
    event.after.workspace.allIds.count id + event.requestedIds.count id ≤
      session.workspace.allIds.count id + event.mintedIds.count id +
        event.insertedIds.count id := by
  intro event
  cases action with
  | dispatch command =>
    cases done : session.workspace.apply session.ids command with
    | ok outcome =>
      have more := (Workspace.commit_of_apply done).count_allIds_le id
      simp only [event, session.event_of_committed done]
      exact more
    | error reason =>
      simp only [event, session.event_of_refused done]
      exact Nat.le_add_right_of_le (Nat.le_add_right _ _)
  | mintId => exact Nat.le_refl _
  | subscribe listener => exact Nat.le_refl _
  | unsubscribe id => exact Nat.le_refl _

theorem run_balanced (label : String) (actions : List (Action α)) :
    Balanced ((new label).history actions) ((new label).run actions).1 := by
  refine run_keeps Balanced ?_ (new label) (fun id => Nat.le_refl _) actions
  intro past session action balanced id
  have before := balanced id
  have now := session.event_balance action id
  simp only [List.flatMap_append, List.flatMap_singleton, List.count_append]
  omega

section Discipline

variable {label : String} {actions : List (Action α)}
  (minted : ((new label).mintedIds actions).Nodup)
  (collaborative : Collaborative [] ((new label).history actions))

include minted

theorem stored_of_not_inserted {id : String}
    (outside : id ∉ ((new label).history actions).flatMap Event.insertedIds) :
    ((new label).run actions).1.workspace.allIds.count id +
      (((new label).history actions).flatMap Event.requestedIds).count id ≤ 1 := by
  have balance := run_balanced label actions id
  have once : (((new label).history actions).flatMap Event.mintedIds).count id ≤ 1 :=
    List.nodup_iff_count_le_one.mp minted id
  have never := List.count_eq_zero_of_not_mem outside
  omega

include collaborative

theorem stored_distinct : ((new label).run actions).1.workspace.allIds.Nodup := by
  obtain ⟨insertedOnce, requested⟩ := collaborative.inserted List.nodup_nil nofun
  rw [List.nil_append] at insertedOnce requested
  rw [List.nodup_iff_count_le_one]
  intro id
  by_cases inside : id ∈ ((new label).history actions).flatMap Event.insertedIds
  · -- The request and the insertion cancel each other out.
    have balance := run_balanced label actions id
    have once : (((new label).history actions).flatMap Event.mintedIds).count id ≤ 1 :=
      List.nodup_iff_count_le_one.mp minted id
    have asked := List.count_pos_iff.mpr (requested id inside)
    have used := List.nodup_iff_count_le_one.mp insertedOnce id
    omega
  · have bound := stored_of_not_inserted minted inside
    omega

end Discipline

theorem mintedIds_nodup {label : String} {actions : List (Action α)}
    (few : ((new label).mintedIds actions).length < UInt64.size) :
    ((new label).mintedIds actions).Nodup := by
  rw [mintedIds_new]
  exact IdSource.mintMany_ofSeed_nodup (seedFor label) _ few

theorem mintedIds_append (session : Session α) (first later : List (Action α)) :
    session.mintedIds (first ++ later) =
      session.mintedIds first ++ (session.run first).1.mintedIds later := by
  rw [mintedIds, history_append, List.flatMap_append]
  rfl

/-- Only an insertion is refused for an id that is taken, and then the document holds the id. -/
theorem taken_of_duplicate {session : Session α} {action : Action α} {id : String}
    (duplicate : (session.event action).reply = .rejected (.duplicateNodeId id)) :
    id ∈ (session.event action).offeredIds ∧ 0 < session.workspace.allIds.count id := by
  cases action with
  | dispatch command =>
    cases done : session.workspace.apply session.ids command with
    | ok outcome =>
      rw [session.event_of_committed done] at duplicate
      cases duplicate
    | error reason =>
      rw [session.event_of_refused done] at duplicate
      cases duplicate
      obtain ⟨node, parentId, page, rfl, rfl, shown, present⟩ :=
        Workspace.insertion_of_duplicate done
      rw [Node.contains_iff_count_pos] at present
      exact ⟨node.id_mem_ids,
        Nat.lt_of_lt_of_le present (Workspace.count_le_allIds shown node.id)⟩
  | mintId => cases duplicate
  | subscribe listener => cases duplicate
  | unsubscribe id => cases duplicate

/-- Whatever else happens in a run: where all ids of insertions were asked for and are used once,
none of them is ever taken, and the whole document never holds an id twice. -/
theorem requested_ids_never_collide (label : String) (actions : List (Action α))
    (few : ((new label).mintedIds actions).length < UInt64.size)
    (collaborative : Collaborative [] ((new label).history actions)) :
    (∀ event ∈ (new label).history actions, ∀ id, event.reply ≠ .rejected (.duplicateNodeId id)) ∧
      ∀ past, past <+: actions →
        ∀ project, ((new label).run past).1.workspace.project = some project →
          project.allIds.Nodup := by
  have minted := mintedIds_nodup few
  constructor
  · intro event member id duplicate
    obtain ⟨past, action, later, rfl, rfl⟩ := exists_split_of_mem_history member
    rw [history_append, history_cons] at collaborative
    rw [mintedIds_append] at minted
    obtain ⟨offered, taken⟩ := taken_of_duplicate duplicate
    obtain ⟨⟨-, requested⟩, -⟩ := collaborative.append.2
    obtain ⟨asked, outside⟩ := requested id offered
    have bound := stored_of_not_inserted minted.of_append_left outside
    have positive := List.count_pos_iff.mpr asked
    rw [List.nil_append] at positive
    omega
  · rintro past ⟨later, rfl⟩ project opened
    rw [history_append] at collaborative
    rw [mintedIds_append] at minted
    rw [← Workspace.allIds_of_open opened]
    exact stored_distinct minted.of_append_left collaborative.append.1

/-- Two collaborators on two pages. The one has to try again, since the parent was missing. -/
theorem two_collaborators :
    let actions : List (Action Unit) := [.dispatch (.createProject "Site"), .mintId, .mintId,
      .dispatch (.addNode ((Node.frame "0-4" "Box").withChildren [.text "0-5" "Note"]) none),
      .dispatch (.addPage "About"), .mintId,
      .dispatch (.addNode (.text "0-8" "Title") (some "0-4")),
      .dispatch (.addNode (.text "0-8" "Title") none)]
    let workspace := ((new "").run actions).1.workspace
    Collaborative [] ((new "").history actions) ∧
      workspace.allIds = ["0-1", "0-2", "0-3", "0-4", "0-5", "0-6", "0-7", "0-8"] ∧
      ∃ project, workspace.project = some project ∧ project.allIds.Nodup := by
  intro actions workspace
  have collaborative : Collaborative [] ((new "").history actions) := by decide +kernel
  have stored : workspace.allIds =
      ["0-1", "0-2", "0-3", "0-4", "0-5", "0-6", "0-7", "0-8"] := by
    decide +kernel
  have few : ((new "").mintedIds actions).length < UInt64.size := by
    have minted : (new "").mintedIds actions =
        ["0-1", "0-2", "0-3", "0-4", "0-5", "0-6", "0-7", "0-8"] := by
      decide +kernel
    rw [minted]
    decide
  obtain ⟨project, opened⟩ := Option.isSome_iff_exists.mp
    (show workspace.project.isSome = true by decide +kernel)
  obtain ⟨-, distinct⟩ := requested_ids_never_collide "" actions few collaborative
  refine ⟨collaborative, stored, project, opened, ?_⟩
  exact distinct actions (List.prefix_refl _) project opened

end Session

end PageDesigner
