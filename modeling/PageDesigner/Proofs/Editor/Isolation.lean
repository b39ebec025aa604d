import PageDesigner.Proofs.Editor.Consistency
import PageDesigner.Proofs.Editor.NodeCommand

/-!
Pages do not notice each other. Where commands for several pages are mixed, each right after its
page was put on display, every page gets the answers and the tree that its own commands would have
got it alone.
-/

namespace PageDesigner

namespace Project

variable {project : Project} {id other : String} {page : Page} {change otherChange : Page → Page}

/-- A change goes by what it makes of the page that is found. -/
theorem modifyPage_congr (found : project.page? id = some page)
    (agree : change page = otherChange page) :
    project.modifyPage id change = project.modifyPage id otherChange := by
  obtain ⟨rfl, before, after, split, first⟩ := page?_split found
  simp only [modifyPage, split, modifyFirst_split first, agree]

theorem page?_modifyPage_same (found : project.page? id = some page)
    (keepsId : ∀ page, (change page).id = page.id) :
    (project.modifyPage id change).page? id = some (change page) := by
  obtain ⟨rfl, before, after, split, first⟩ := page?_split found
  have notBefore : before.find? (fun other => other.id = page.id) = none := by simpa using first
  simp [page?, modifyPage, split, modifyFirst_split first, List.find?_append, notBefore, keepsId]

theorem find?_modifyFirst_other (apart : id ≠ other) (keepsId : ∀ page, (change page).id = page.id)
    (pages : List Page) :
    (modifyFirst id change pages).find? (fun page => page.id = other) =
      pages.find? fun page => page.id = other := by
  induction pages with
  | nil => rfl
  | cons page pages ih =>
    rw [modifyFirst]
    split
    · rename_i same
      have away : page.id ≠ other := fun here => apart (same.symm.trans here)
      simp [keepsId, away]
    · rw [List.find?_cons, List.find?_cons, ih]

theorem page?_modifyPage_other (apart : id ≠ other)
    (keepsId : ∀ page, (change page).id = page.id) :
    (project.modifyPage id change).page? other = project.page? other :=
  find?_modifyFirst_other apart keepsId project.pages

/-- The pages stand in the same order under the same names, and all but those with the ids are just
as they were. -/
structure SameBut (ids : List String) (before after : Project) : Prop where
  id : after.id = before.id
  name : after.name = before.name
  titles : after.pages.map (fun page => (page.id, page.name)) =
    before.pages.map fun page => (page.id, page.name)
  others : ∀ (position : Nat) (page : Page), before.pages[position]? = some page → page.id ∉ ids →
    after.pages[position]? = some page

namespace SameBut

variable {ids : List String} {first second third : Project}

theorem refl (ids : List String) (project : Project) : SameBut ids project project :=
  ⟨rfl, rfl, rfl, fun _ _ placed _ => placed⟩

theorem trans (earlier : SameBut ids first second) (later : SameBut ids second third) :
    SameBut ids first third where
  id := later.id.trans earlier.id
  name := later.name.trans earlier.name
  titles := later.titles.trans earlier.titles
  others := by
    intro position page inFirst outside
    exact later.others position page (earlier.others position page inFirst outside) outside

theorem ids_eq (same : SameBut ids first second) :
    second.pages.map Page.id = first.pages.map Page.id := by
  let title (page : Page) := (page.id, page.name)
  calc second.pages.map Page.id = (second.pages.map title).map Prod.fst := by
        rw [List.map_map]
        rfl
    _ = (first.pages.map title).map Prod.fst := congrArg _ same.titles
    _ = first.pages.map Page.id := by
        rw [List.map_map]
        rfl

end SameBut

theorem modifyFirst_titles (id : String) (root : Page → Node) (pages : List Page) :
    (modifyFirst id (fun page => { page with root := root page }) pages).map
        (fun page => (page.id, page.name)) =
      pages.map fun page => (page.id, page.name) := by
  induction pages with
  | nil => rfl
  | cons page pages ih =>
    rw [modifyFirst]
    split
    · rfl
    · rw [List.map_cons, List.map_cons, ih]

theorem modifyFirst_others (change : Page → Page) {pages : List Page} {position : Nat}
    (placed : pages[position]? = some page) (outside : page.id ≠ id) :
    (modifyFirst id change pages)[position]? = some page := by
  induction pages generalizing position with
  | nil => simp at placed
  | cons first pages ih =>
    rw [modifyFirst]
    cases position with
    | zero =>
      rw [List.getElem?_cons_zero, Option.some.injEq] at placed
      rw [placed, if_neg outside, List.getElem?_cons_zero]
    | succ position =>
      rw [List.getElem?_cons_succ] at placed
      split
      · exact placed
      · exact ih placed

theorem modifyPage_sameBut {ids : List String} (inside : id ∈ ids) (root : Page → Node) :
    SameBut ids project (project.modifyPage id fun page => { page with root := root page }) where
  id := rfl
  name := rfl
  titles := modifyFirst_titles id root project.pages
  others := by
    intro position page placed outside
    apply modifyFirst_others _ placed
    rintro rfl
    exact outside inside

end Project

/-- A command for the nodes of a page. -/
structure Visit where
  pageId : String
  command : NodeCommand
  deriving DecidableEq, Repr

namespace Visit

/-- The page is put on display right before the command. -/
def actions {α : Type} (visit : Visit) : List (Action α) :=
  [.dispatch (.setCurrentPage visit.pageId), .dispatch visit.command.command]

def replies (visit : Visit) (page : Page) : List Reply :=
  [.committed, visit.command.reply page.root]

def on (visit : Visit) (page : Page) : Page :=
  { page with root := visit.command.result page.root }

/-- The visits to the page with the id. -/
def toPage (id : String) (visits : List Visit) : List Visit :=
  visits.filter fun visit => visit.pageId = id

theorem toPage_cons_of_eq {visit : Visit} {id : String} (here : visit.pageId = id)
    (visits : List Visit) : toPage id (visit :: visits) = visit :: toPage id visits :=
  List.filter_cons_of_pos (decide_eq_true here)

theorem toPage_cons_of_ne {visit : Visit} {id : String} (elsewhere : visit.pageId ≠ id)
    (visits : List Visit) : toPage id (visit :: visits) = toPage id visits :=
  List.filter_cons_of_neg (by simpa using elsewhere)

/-- Visits to one page: the page as they leave it, and what each is answered. -/
def onAll : List Visit → Page → Page × List (Visit × List Reply)
  | [], page => (page, [])
  | visit :: visits, page =>
    ((onAll visits (visit.on page)).1,
      (visit, visit.replies page) :: (onAll visits (visit.on page)).2)

end Visit

namespace Session

variable {α : Type}

/-- The visits one after the other, with the replies to the actions of each. -/
def visitAll (session : Session α) : List Visit → Session α × List (Visit × List Reply)
  | [] => (session, [])
  | visit :: visits =>
    let (next, replies) := session.run visit.actions
    let (last, later) := next.visitAll visits
    (last, (visit, replies.map Prod.fst) :: later)

theorem visitAll_cons_replies (session : Session α) (visit : Visit) (visits : List Visit) :
    (session.visitAll (visit :: visits)).2 =
      (visit, (session.run visit.actions).2.map Prod.fst) ::
        ((session.run visit.actions).1.visitAll visits).2 := rfl

theorem visitAll_visits (session : Session α) (visits : List Visit) :
    (session.visitAll visits).2.map Prod.fst = visits := by
  induction visits generalizing session with
  | nil => rfl
  | cons visit visits ih => rw [visitAll_cons_replies, List.map_cons, ih]

variable {session : Session α} {project : Project} {page : Page}

theorem dispatch_setCurrentPage {id : String} (opened : session.workspace.project = some project)
    (found : project.page? id = some page) :
    session.dispatch (.setCurrentPage id) =
      ({ session with
          workspace := { session.workspace with pageId := some id, selectedId := none } },
        .committed, session.listeners.toList.map fun listener =>
          (listener, { session.workspace with pageId := some id, selectedId := none })) := by
  simp [dispatch_eq, Workspace.apply, Workspace.setCurrentPage, opened, found, Except.map]

theorem run_visit (opened : session.workspace.project = some project) {visit : Visit}
    (found : project.page? visit.pageId = some page) :
    (session.run visit.actions).1.workspace.project =
        some (project.modifyPage visit.pageId visit.on) ∧
      (session.run visit.actions).2.map Prod.fst = visit.replies page := by
  let there : Session α := (session.dispatch (.setCurrentPage visit.pageId)).1
  have switched := dispatch_setCurrentPage opened found
  have shown : there.workspace.page? = some page := by
    simp [there, switched, Workspace.page?, opened, found]
  have answer := reply_of_shown shown visit.command
  obtain ⟨selectedId, after⟩ := workspace_of_shown shown visit.command
  constructor
  · show (there.dispatch visit.command.command).1.workspace.project = _
    rw [after]
    simp only [there, switched, Workspace.withRoot, opened]
    rw [Project.modifyPage_congr found]
    rfl
  · show [(session.dispatch (.setCurrentPage visit.pageId)).2.1,
      (there.dispatch visit.command.command).2.1] = visit.replies page
    rw [answer, switched]
    rfl

/-- Visits to pages that are there change nothing but those pages. -/
theorem visitAll_sameBut (opened : session.workspace.project = some project) {visits : List Visit}
    {ids : List String} (known : ∀ visit ∈ visits, visit.pageId ∈ project.pages.map Page.id)
    (inside : ∀ visit ∈ visits, visit.pageId ∈ ids) :
    ∃ last, (session.visitAll visits).1.workspace.project = some last ∧
      Project.SameBut ids project last := by
  induction visits generalizing session project with
  | nil => exact ⟨project, opened, .refl ids project⟩
  | cons visit visits ih =>
    rw [List.forall_mem_cons] at known inside
    obtain ⟨page, -, -, found⟩ := Project.exists_page? known.1
    obtain ⟨openedNext, -⟩ := run_visit opened found
    have first : Project.SameBut ids project (project.modifyPage visit.pageId visit.on) :=
      Project.modifyPage_sameBut inside.1 _
    have knownNext := known.2
    rw [← first.ids_eq] at knownNext
    obtain ⟨last, openedLast, rest⟩ := ih openedNext knownNext inside.2
    exact ⟨last, openedLast, first.trans rest⟩

/-- A page becomes what the visits to it alone make of it, and these are answered alike. -/
theorem visitAll_page (opened : session.workspace.project = some project) {visits : List Visit}
    (known : ∀ visit ∈ visits, visit.pageId ∈ project.pages.map Page.id) {id : String}
    (found : project.page? id = some page) :
    (∃ last, (session.visitAll visits).1.workspace.project = some last ∧
      last.page? id = some (Visit.onAll (Visit.toPage id visits) page).1) ∧
    (session.visitAll visits).2.filter (fun result => result.1.pageId = id) =
      (Visit.onAll (Visit.toPage id visits) page).2 := by
  induction visits generalizing session project page with
  | nil => exact ⟨⟨project, opened, found⟩, rfl⟩
  | cons visit visits ih =>
    rw [List.forall_mem_cons] at known
    obtain ⟨visited, -, -, foundVisited⟩ := Project.exists_page? known.1
    obtain ⟨openedNext, answers⟩ := run_visit opened foundVisited
    have same : Project.SameBut [visit.pageId] project
        (project.modifyPage visit.pageId visit.on) :=
      Project.modifyPage_sameBut List.mem_cons_self _
    have knownNext := known.2
    rw [← same.ids_eq] at knownNext
    by_cases here : visit.pageId = id
    · subst here
      cases found.symm.trans foundVisited
      have foundNext : (project.modifyPage visit.pageId visit.on).page? visit.pageId =
          some (visit.on page) := Project.page?_modifyPage_same found fun _ => rfl
      obtain ⟨reached, later⟩ := ih openedNext knownNext foundNext
      rw [Visit.toPage_cons_of_eq rfl]
      refine ⟨reached, ?_⟩
      rw [visitAll_cons_replies, answers, List.filter_cons_of_pos (by simp), later]
      rfl
    · have foundNext : (project.modifyPage visit.pageId visit.on).page? id = project.page? id :=
        Project.page?_modifyPage_other here fun _ => rfl
      obtain ⟨reached, later⟩ := ih openedNext knownNext (foundNext.trans found)
      rw [Visit.toPage_cons_of_ne here]
      refine ⟨reached, ?_⟩
      rw [visitAll_cons_replies, List.filter_cons_of_neg (by simpa using here), later]

/-- The tree of the page with the id. -/
def tree? (session : Session α) (id : String) : Option Node :=
  (session.workspace.project.bind fun project => project.page? id).map Page.root

theorem tree?_eq (opened : session.workspace.project = some project) {id : String}
    (found : project.page? id = some page) : session.tree? id = some page.root := by
  rw [tree?, opened, Option.bind_some, found, Option.map_some]

/-- A page does not notice the visits to other pages. -/
theorem visitAll_alone (opened : session.workspace.project = some project) {visits : List Visit}
    (known : ∀ visit ∈ visits, visit.pageId ∈ project.pages.map Page.id) {id : String}
    (here : id ∈ project.pages.map Page.id) :
    let together := session.visitAll visits
    let alone := session.visitAll (Visit.toPage id visits)
    together.2.filter (fun result => result.1.pageId = id) = alone.2 ∧
      ∃ tree, together.1.tree? id = some tree ∧ alone.1.tree? id = some tree := by
  intro together alone
  obtain ⟨page, -, -, found⟩ := Project.exists_page? here
  have knownAlone : ∀ visit ∈ Visit.toPage id visits, visit.pageId ∈ project.pages.map Page.id := by
    intro visit member
    exact known visit (List.mem_of_mem_filter member)
  obtain ⟨⟨last, openedLast, shown⟩, answers⟩ := visitAll_page opened known found
  obtain ⟨⟨lastAlone, openedAlone, shownAlone⟩, answersAlone⟩ :=
    visitAll_page opened knownAlone found
  have twice : Visit.toPage id (Visit.toPage id visits) = Visit.toPage id visits := by
    simp only [Visit.toPage, List.filter_filter, Bool.and_self]
  rw [twice] at shownAlone answersAlone
  have all : alone.2.filter (fun result => result.1.pageId = id) = alone.2 := by
    rw [List.filter_eq_self]
    intro result member
    have visited : result.1 ∈ Visit.toPage id visits := by
      rw [← session.visitAll_visits (Visit.toPage id visits)]
      exact List.mem_map_of_mem member
    exact (List.mem_filter.mp visited).2
  refine ⟨?_, _, tree?_eq openedLast shown, tree?_eq openedAlone shownAlone⟩
  calc together.2.filter (fun result => result.1.pageId = id)
      = (Visit.onAll (Visit.toPage id visits) page).2 := answers
    _ = alone.2.filter (fun result => result.1.pageId = id) := answersAlone.symm
    _ = alone.2 := all

end Session

/-- The third list holds the first two, each in its own order. -/
inductive Interleaves {β : Type} : List β → List β → List β → Prop
  | nil : Interleaves [] [] []
  | left {item : β} {lefts rights merged : List β} (rest : Interleaves lefts rights merged) :
    Interleaves (item :: lefts) rights (item :: merged)
  | right {item : β} {lefts rights merged : List β} (rest : Interleaves lefts rights merged) :
    Interleaves lefts (item :: rights) (item :: merged)

namespace Interleaves

variable {β : Type} {lefts rights merged : List β}

theorem symm (interleaves : Interleaves lefts rights merged) :
    Interleaves rights lefts merged := by
  induction interleaves with
  | nil => exact .nil
  | left rest ih => exact .right ih
  | right rest ih => exact .left ih

theorem mem_or (interleaves : Interleaves lefts rights merged) :
    ∀ item ∈ merged, item ∈ lefts ∨ item ∈ rights := by
  induction interleaves with
  | nil => exact fun _ member => Or.inl member
  | left rest ih =>
    intro item member
    rcases List.mem_cons.mp member with rfl | later
    · exact Or.inl List.mem_cons_self
    · exact (ih item later).imp_left (List.mem_cons_of_mem _)
  | right rest ih =>
    intro item member
    rcases List.mem_cons.mp member with rfl | later
    · exact Or.inr List.mem_cons_self
    · exact (ih item later).imp_right (List.mem_cons_of_mem _)

/-- What tells the two lists apart takes the first one out again. -/
theorem filter_eq (interleaves : Interleaves lefts rights merged) {test : β → Bool}
    (passes : ∀ item ∈ lefts, test item = true) (fails : ∀ item ∈ rights, ¬test item = true) :
    merged.filter test = lefts := by
  induction interleaves with
  | nil => rfl
  | left rest ih =>
    rw [List.forall_mem_cons] at passes
    rw [List.filter_cons_of_pos passes.1, ih passes.2 fails]
  | right rest ih =>
    rw [List.forall_mem_cons] at fails
    rw [List.filter_cons_of_neg fails.1, ih passes fails.2]

theorem toPage_eq {first second : String} (apart : first ≠ second)
    {forFirst forSecond : List NodeCommand} {visits : List Visit}
    (interleaves : Interleaves (forFirst.map (Visit.mk first)) (forSecond.map (Visit.mk second))
      visits) :
    Visit.toPage first visits = forFirst.map (Visit.mk first) := by
  apply interleaves.filter_eq
  · intro visit member
    obtain ⟨command, -, rfl⟩ := List.mem_map.mp member
    exact decide_eq_true rfl
  · intro visit member
    obtain ⟨command, -, rfl⟩ := List.mem_map.mp member
    simpa using apart.symm

end Interleaves

namespace Session

variable {α : Type}

/-- Whatever the session, and however the commands for two of its pages are mixed: each page gets
the replies and the tree that it gets alone, and nothing else of the project changes. -/
theorem pages_do_not_interfere (session : Session α) {project : Project}
    (opened : session.workspace.project = some project) {first second : String}
    (firstHere : first ∈ project.pages.map Page.id)
    (secondHere : second ∈ project.pages.map Page.id) (apart : first ≠ second)
    (forFirst forSecond : List NodeCommand) {visits : List Visit}
    (mixed : Interleaves (forFirst.map (Visit.mk first)) (forSecond.map (Visit.mk second)) visits) :
    let together := session.visitAll visits
    let firstAlone := session.visitAll (forFirst.map (Visit.mk first))
    let secondAlone := session.visitAll (forSecond.map (Visit.mk second))
    (together.2.filter (fun result => result.1.pageId = first) = firstAlone.2 ∧
      ∃ tree, together.1.tree? first = some tree ∧ firstAlone.1.tree? first = some tree) ∧
    (together.2.filter (fun result => result.1.pageId = second) = secondAlone.2 ∧
      ∃ tree, together.1.tree? second = some tree ∧ secondAlone.1.tree? second = some tree) ∧
    ∃ last, together.1.workspace.project = some last ∧
      Project.SameBut [first, second] project last := by
  intro together firstAlone secondAlone
  have places : ∀ visit ∈ visits, visit.pageId = first ∨ visit.pageId = second := by
    intro visit member
    rcases mixed.mem_or visit member with toFirst | toSecond
    · obtain ⟨command, -, rfl⟩ := List.mem_map.mp toFirst
      exact Or.inl rfl
    · obtain ⟨command, -, rfl⟩ := List.mem_map.mp toSecond
      exact Or.inr rfl
  have known : ∀ visit ∈ visits, visit.pageId ∈ project.pages.map Page.id := by
    intro visit member
    rcases places visit member with same | same
    · exact same ▸ firstHere
    · exact same ▸ secondHere
  have own := visitAll_alone opened known firstHere
  have other := visitAll_alone opened known secondHere
  rw [mixed.toPage_eq apart] at own
  rw [mixed.symm.toPage_eq apart.symm] at other
  refine ⟨own, other, visitAll_sameBut opened known ?_⟩
  intro visit member
  rcases places visit member with same | same
  · exact same ▸ List.mem_cons_self
  · exact same ▸ List.mem_cons_of_mem _ List.mem_cons_self

/-- Two pages get a node of the same id. The one is then filled, and the other loses it again, which
it cannot do twice. -/
theorem two_pages_share_node_id :
    let actions : List (Action Unit) := [.dispatch (.createProject "Site"),
      .dispatch (.addPage "About")]
    let session := ((new "").run actions).1
    let box : NodeCommand := .insert (.frame "box" "Box") none
    let fill : NodeCommand := .insert (.text "note" "Note") (some "box")
    let visits : List Visit := [⟨"0-2", box⟩, ⟨"0-4", box⟩, ⟨"0-4", .delete "box"⟩, ⟨"0-2", fill⟩,
      ⟨"0-4", .delete "box"⟩]
    let together := session.visitAll visits
    let alone := session.visitAll [⟨"0-4", box⟩, ⟨"0-4", .delete "box"⟩, ⟨"0-4", .delete "box"⟩]
    session.workspace.project.map (fun project => project.pages.map Page.id) =
        some ["0-2", "0-4"] ∧
      Interleaves ([box, fill].map (Visit.mk "0-2"))
        ([box, .delete "box", .delete "box"].map (Visit.mk "0-4")) visits ∧
      together.2.filter (fun result => result.1.pageId = "0-4") = alone.2 ∧
      alone.2.map Prod.snd = [[.committed, .committed], [.committed, .committed],
        [.committed, .rejected (.nodeNotFound "box")]] := by
  intro actions session box fill visits together alone
  have pages : session.workspace.project.map (fun project => project.pages.map Page.id) =
      some ["0-2", "0-4"] := by
    decide +kernel
  have mixed : Interleaves ([box, fill].map (Visit.mk "0-2"))
      ([box, .delete "box", .delete "box"].map (Visit.mk "0-4")) visits :=
    .left (.right (.right (.left (.right .nil))))
  have replies : alone.2.map Prod.snd = [[.committed, .committed], [.committed, .committed],
      [.committed, .rejected (.nodeNotFound "box")]] := by
    decide +kernel
  obtain ⟨project, opened, ids⟩ := Option.map_eq_some_iff.mp pages
  have firstHere : "0-2" ∈ project.pages.map Page.id := by rw [ids]; decide
  have secondHere : "0-4" ∈ project.pages.map Page.id := by rw [ids]; decide
  obtain ⟨-, ⟨answers, -⟩, -⟩ := pages_do_not_interfere session opened firstHere secondHere
    (by decide) [box, fill] [box, .delete "box", .delete "box"] mixed
  exact ⟨pages, mixed, answers, replies⟩

end Session

end PageDesigner
