import PageDesigner.Proofs.Tree.FirstMatch
import PageDesigner.Tree.Restyle

/-!
The last write to a field wins. A run of layout and style edits sets each field of the first node
with an id to the value that the last edit of that id and kind to set the field sets it to. All else
in the tree stays, so the run comes to the same as any other with the same patches for each node.
-/

namespace PageDesigner

section LastValue

variable {Patch Value : Type} (field : Patch → Option Value)

theorem lastValue_nil : lastValue field [] = none := rfl

/-- A patch counts for a field if no later one sets it. -/
theorem lastValue_cons (patch : Patch) (patches : List Patch) :
    lastValue field (patch :: patches) = (lastValue field patches).or (field patch) := by
  cases set : field patch with
  | none => rw [lastValue, List.filterMap_cons_none set, Option.or_none, lastValue]
  | some value =>
    rw [lastValue, List.filterMap_cons_some set, List.getLast?_cons, lastValue]
    cases (patches.filterMap field).getLast? <;> rfl

end LastValue

theorem Layout.lastSet_nil (layout : Layout) : layout.lastSet [] = layout := by
  simp [Layout.lastSet, lastValue_nil]

theorem Layout.lastSet_cons (layout : Layout) (patch : LayoutPatch) (patches : List LayoutPatch) :
    layout.lastSet (patch :: patches) = (layout.merge patch).lastSet patches := by
  simp [Layout.lastSet, Layout.merge, lastValue_cons, Option.or_assoc]

theorem Styles.lastSet_nil (styles : Styles) : styles.lastSet [] = styles := by
  simp [Styles.lastSet, lastValue_nil]

theorem Styles.lastSet_cons (styles patch : Styles) (patches : List Styles) :
    styles.lastSet (patch :: patches) = (styles.merge patch).lastSet patches := by
  simp [Styles.lastSet, Styles.merge, lastValue_cons, Option.or_assoc]

theorem Styles.merge_assoc (styles first second : Styles) :
    (styles.merge first).merge second = styles.merge (first.merge second) := by
  simp [Styles.merge, Option.or_assoc]

section Entries

/-- Changes the first entry with each id, apart from the ids that were seen before. -/
def changeFirsts (change : Element → Element) (seen : List String) : List Entry → List Entry
  | [] => []
  | entry :: entries =>
    (if entry.1.id ∈ seen then entry else (change entry.1, entry.2)) ::
      changeFirsts change (seen ++ [entry.1.id]) entries

variable {change first second : Element → Element}

theorem changeFirsts_append (change : Element → Element) (seen : List String)
    (left right : List Entry) :
    changeFirsts change seen (left ++ right) = changeFirsts change seen left ++
      changeFirsts change (seen ++ left.map fun entry => entry.1.id) right := by
  induction left generalizing seen with
  | nil => rw [List.nil_append, changeFirsts, List.nil_append, List.map_nil, List.append_nil]
  | cons entry left ih =>
    rw [List.cons_append, changeFirsts, changeFirsts, ih, List.cons_append, List.map_cons,
      List.append_assoc, List.singleton_append]

theorem changeFirsts_eq_self {seen : List String} {entries : List Entry}
    (same : ∀ entry ∈ entries, entry.1.id ∉ seen → change entry.1 = entry.1) :
    changeFirsts change seen entries = entries := by
  induction entries generalizing seen with
  | nil => rfl
  | cons entry entries ih =>
    rw [List.forall_mem_cons] at same
    have rest : changeFirsts change (seen ++ [entry.1.id]) entries = entries := by
      apply ih
      intro other member unseen
      exact same.2 other member fun before => unseen (List.mem_append_left _ before)
    rw [changeFirsts, rest]
    split
    · rfl
    · rename_i unseen
      rw [same.1 unseen]

/-- A change that only concerns one id changes a single entry. -/
theorem changeFirsts_of_one {id : String} {front back : List Entry} {entry : Entry}
    (elsewhere : ∀ element : Element, element.id ≠ id → change element = element)
    (before : ∀ earlier ∈ front, earlier.1.id ≠ id) (here : entry.1.id = id) :
    changeFirsts change [] (front ++ entry :: back) =
      front ++ (change entry.1, entry.2) :: back := by
  have unchanged : changeFirsts change [] front = front := by
    apply changeFirsts_eq_self
    intro earlier member _
    exact elsewhere _ (before earlier member)
  have unseen : entry.1.id ∉ front.map fun earlier => earlier.1.id := by
    intro seen
    obtain ⟨earlier, member, same⟩ := List.mem_map.mp seen
    exact before earlier member (same.trans here)
  have past : changeFirsts change ((front.map fun earlier => earlier.1.id) ++ [entry.1.id]) back =
      back := by
    apply changeFirsts_eq_self
    intro later _ unseen
    apply elsewhere
    intro same
    apply unseen
    rw [same, here]
    exact List.mem_append_right _ List.mem_cons_self
  calc
    changeFirsts change [] (front ++ entry :: back)
      = changeFirsts change [] front ++
          changeFirsts change (front.map fun earlier => earlier.1.id) (entry :: back) :=
        changeFirsts_append change [] front (entry :: back)
    _ = front ++ (change entry.1, entry.2) :: back := by
        rw [unchanged, changeFirsts, if_neg unseen, past]

/-- Which entries are the first with their ids does not change with them. -/
theorem changeFirsts_changeFirsts (keeps : ∀ element, (first element).id = element.id)
    (seen : List String) (entries : List Entry) :
    changeFirsts second seen (changeFirsts first seen entries) =
      changeFirsts (second ∘ first) seen entries := by
  induction entries generalizing seen with
  | nil => rfl
  | cons entry entries ih =>
    rw [changeFirsts, changeFirsts, changeFirsts]
    by_cases before : entry.1.id ∈ seen
    · rw [if_pos before, if_pos before, if_pos before, ih]
    · rw [if_neg before, if_neg before, keeps, if_neg before, ih, Function.comp]

theorem getElem?_changeFirsts (seen : List String) (entries : List Entry) (index : Nat) :
    (changeFirsts change seen entries)[index]? = entries[index]?.map fun entry =>
      if entry.1.id ∈ seen ++ (entries.take index).map (fun earlier => earlier.1.id) then entry
      else (change entry.1, entry.2) := by
  induction entries generalizing seen index with
  | nil => rfl
  | cons entry entries ih =>
    cases index with
    | zero => simp [changeFirsts]
    | succ index => simp [changeFirsts, ih]

theorem find?_changeFirsts (keeps : ∀ element, (change element).id = element.id) {id : String}
    {seen : List String} (unseen : id ∉ seen) (entries : List Entry) :
    (changeFirsts change seen entries).find? (fun entry => entry.1.id = id) =
      (entries.find? fun entry => entry.1.id = id).map fun entry => (change entry.1, entry.2) := by
  induction entries generalizing seen with
  | nil => rfl
  | cons entry entries ih =>
    rw [changeFirsts]
    by_cases same : entry.1.id = id
    · have before : entry.1.id ∉ seen := same ▸ unseen
      have kept : (change entry.1).id = id := (keeps entry.1).trans same
      rw [if_neg before, List.find?_cons_of_pos (by simpa using kept),
        List.find?_cons_of_pos (by simpa using same), Option.map_some]
    · have later : id ∉ seen ++ [entry.1.id] := by
        simpa [unseen] using Ne.symm same
      have different :
          (if entry.1.id ∈ seen then entry else (change entry.1, entry.2)).1.id ≠ id := by
        split
        · exact same
        · rw [keeps]
          exact same
      rw [List.find?_cons_of_neg (by simpa using different),
        List.find?_cons_of_neg (by simpa using same), ih later]

end Entries

namespace Node

theorem find?_entries (root : Node) (id : String) :
    (root.entries.find? fun entry => entry.1.id = id) = (root.find? id).map entry := by
  rw [entries, List.find?_map]
  rfl

mutual

/-- The entries tell where the nodes right inside one end, so there is one tree that they belong
to. -/
theorem entries_append_inj : ∀ (left right : Node) (rest others : List Entry),
    left.entries ++ rest = right.entries ++ others → left = right ∧ rest = others
  | ⟨element, children⟩, ⟨other, otherChildren⟩, rest, others, same => by
    rw [entries_mk, entries_mk, List.cons_append, List.cons_append, List.cons.injEq,
      Prod.mk.injEq] at same
    obtain ⟨⟨rfl, sameLength⟩, inside⟩ := same
    obtain ⟨rfl, after⟩ :=
      entriesAll_append_inj children otherChildren rest others sameLength inside
    exact ⟨rfl, after⟩

theorem entriesAll_append_inj : ∀ (left right : List Node) (rest others : List Entry),
    left.length = right.length → entriesAll left ++ rest = entriesAll right ++ others →
      left = right ∧ rest = others
  | [], [], rest, others, _, same => ⟨rfl, same⟩
  | [], _ :: _, _, _, sameLength, _ => absurd sameLength (by simp)
  | _ :: _, [], _, _, sameLength, _ => absurd sameLength (by simp)
  | node :: nodes, other :: otherNodes, rest, others, sameLength, same => by
    rw [entriesAll_cons, entriesAll_cons, List.append_assoc, List.append_assoc] at same
    obtain ⟨rfl, further⟩ := entries_append_inj node other _ _ same
    have shorter : nodes.length = otherNodes.length := Nat.succ.inj sameLength
    obtain ⟨rfl, after⟩ := entriesAll_append_inj nodes otherNodes rest others shorter further
    exact ⟨rfl, after⟩

end

theorem entries_injective {left right : Node} (same : left.entries = right.entries) :
    left = right := by
  have padded : left.entries ++ [] = right.entries ++ [] := by rw [same]
  exact (entries_append_inj left right [] [] padded).1

end Node

namespace Restyle

def change : Restyle → NodeUpdate
  | layout _ patch => .layout patch
  | styles _ patch => .styles patch

/-- What a single edit makes of the first element with its id. -/
def applied (edit : Restyle) (element : Element) : Element :=
  if element.id = edit.target then edit.change.applied element else element

theorem on_eq_update (edit : Restyle) (root : Node) :
    edit.on root = (TreeEdit.update edit.target edit.change).on root := by
  cases edit with
  | layout id patch => rfl
  | styles id patch => rfl

theorem applied_id (edit : Restyle) (element : Element) :
    (edit.applied element).id = element.id := by
  unfold applied
  split
  · exact (edit.change.applied_id element).1
  · rfl

theorem applied_of_other {edit : Restyle} {element : Element} (other : element.id ≠ edit.target) :
    edit.applied element = element :=
  if_neg other

theorem written_id (edits : List Restyle) (element : Element) :
    (written edits element).id = element.id := rfl

theorem written_nil (element : Element) : written [] element = element := by
  rw [written, List.filterMap_nil, List.filterMap_nil, Layout.lastSet_nil, Styles.lastSet_nil]

/-- The first edit of a run counts for what the later ones leave as it is. -/
theorem written_cons (edit : Restyle) (edits : List Restyle) (element : Element) :
    written (edit :: edits) element = written edits (edit.applied element) := by
  by_cases here : element.id = edit.target
  · cases edit with
    | layout id patch =>
      have heard : layoutPatch? element.id (layout id patch) = some patch := if_pos here.symm
      have unheard : stylesPatch? element.id (layout id patch) = none := rfl
      rw [written, List.filterMap_cons_some heard, List.filterMap_cons_none unheard,
        Layout.lastSet_cons, applied, if_pos here]
      rfl
    | styles id patch =>
      have unheard : layoutPatch? element.id (styles id patch) = none := rfl
      have heard : stylesPatch? element.id (styles id patch) = some patch := if_pos here.symm
      rw [written, List.filterMap_cons_none unheard, List.filterMap_cons_some heard,
        Styles.lastSet_cons, applied, if_pos here]
      rfl
  · have nothing : layoutPatch? element.id edit = none ∧ stylesPatch? element.id edit = none := by
      cases edit with
      | layout id patch => exact ⟨if_neg (Ne.symm here), rfl⟩
      | styles id patch => exact ⟨rfl, if_neg (Ne.symm here)⟩
    rw [applied_of_other here, written, List.filterMap_cons_none nothing.1,
      List.filterMap_cons_none nothing.2, written]

theorem written_of_other {edits : List Restyle} {element : Element}
    (other : element.id ∉ edits.map target) : written edits element = element := by
  induction edits with
  | nil => exact written_nil element
  | cons edit edits ih =>
    rw [List.map_cons, List.mem_cons, not_or] at other
    rw [written_cons, applied_of_other other.1, ih other.2]

theorem entries_on (edit : Restyle) (root : Node) :
    (edit.on root).entries = changeFirsts edit.applied [] root.entries := by
  rw [on_eq_update]
  cases found : root.find? edit.target with
  | none =>
    have absent : root.contains edit.target = false := Node.find?_eq_none_iff.mp found
    have nothing : edit.change.run edit.target root = none := by
      rw [NodeUpdate.run_eq_applied, Node.changeFirst_eq_none absent]
    have unchanged : changeFirsts edit.applied [] root.entries = root.entries := by
      apply changeFirsts_eq_self
      intro entry member _
      exact applied_of_other (Node.entries_differ absent entry member)
    rw [unchanged, TreeEdit.on, TreeEdit.run, nothing, Option.getD_none]
  | some node =>
    have same : node.id = edit.target := Node.id_of_find? found
    obtain ⟨place, avoids, rfl⟩ := Node.exists_place root node found
    obtain ⟨front, back, shape, differ⟩ := place.entries_fill
    obtain ⟨element, children⟩ := node
    have done : edit.change.run edit.target (place.fill ⟨element, children⟩) =
        some (place.fill (edit.change.appliedTo ⟨element, children⟩)) := by
      rw [NodeUpdate.run_eq_applied, Place.changeFirst_fill avoids same]
    have first : edit.change.applied element = edit.applied element := (if_pos same).symm
    rw [TreeEdit.on, TreeEdit.run, done, Option.getD_some, shape, shape, NodeUpdate.appliedTo,
      Node.entries_mk, Node.entries_mk, List.cons_append, List.cons_append, first]
    symm
    apply changeFirsts_of_one
    · intro element other
      exact applied_of_other other
    · exact differ edit.target avoids
    · exact same

/-- A whole run is one pass over the entries. -/
theorem entries_run (edits : List Restyle) (root : Node) :
    (run edits root).entries = changeFirsts (written edits) [] root.entries := by
  induction edits generalizing root with
  | nil =>
    symm
    apply changeFirsts_eq_self
    intro entry _ _
    exact written_nil entry.1
  | cons edit edits ih =>
    have both : written (edit :: edits) = written edits ∘ edit.applied := by
      funext element
      exact written_cons edit edits element
    calc
      (run edits (edit.on root)).entries
        = changeFirsts (written edits) [] (changeFirsts edit.applied [] root.entries) := by
          rw [ih, entries_on]
      _ = changeFirsts (written (edit :: edits)) [] root.entries := by
          rw [changeFirsts_changeFirsts edit.applied_id, both]

/-- The entry at an index is written if an edit aims at its id and no entry before it has that id. -/
theorem entries_run_getElem? (edits : List Restyle) (root : Node) (index : Nat) :
    (run edits root).entries[index]? = root.entries[index]?.map fun entry =>
      if entry.1.id ∈ edits.map target ∧
          entry.1.id ∉ (root.entries.take index).map fun earlier => earlier.1.id
      then (written edits entry.1, entry.2) else entry := by
  rw [entries_run, getElem?_changeFirsts]
  congr 1
  funext entry
  rw [List.nil_append]
  by_cases before : entry.1.id ∈ (root.entries.take index).map fun earlier => earlier.1.id
  · rw [if_pos before, if_neg fun first => first.2 before]
  · rw [if_neg before]
    by_cases aimed : entry.1.id ∈ edits.map target
    · rw [if_pos ⟨aimed, before⟩]
    · rw [if_neg fun first => aimed first.1, written_of_other aimed]

theorem run_congr {edits others : List Restyle}
    (same : ∀ element, written edits element = written others element) (root : Node) :
    run edits root = run others root := by
  apply Node.entries_injective
  rw [entries_run, entries_run, funext same]

theorem find?_run (edits : List Restyle) {root node : Node} {id : String}
    (found : root.find? id = some node) :
    ∃ children, (run edits root).find? id = some ⟨written edits node.element, children⟩ := by
  have entry : ((run edits root).find? id).map Node.entry =
      some (written edits node.element, node.children.length) := by
    rw [← Node.find?_entries, entries_run,
      find?_changeFirsts (written_id edits) (List.not_mem_nil), Node.find?_entries, found]
    rfl
  obtain ⟨⟨element, children⟩, here, same⟩ := Option.map_eq_some_iff.mp entry
  obtain ⟨rfl, -⟩ := Prod.mk.inj same
  exact ⟨children, here⟩

/-- What counts is which patches of each kind a node gets, and in which order. -/
theorem run_eq_of_patches {edits others : List Restyle}
    (same : ∀ id, others.filterMap (layoutPatch? id) = edits.filterMap (layoutPatch? id) ∧
      others.filterMap (stylesPatch? id) = edits.filterMap (stylesPatch? id)) (root : Node) :
    run others root = run edits root := by
  apply run_congr
  intro element
  rw [written, written, (same element.id).1, (same element.id).2]

theorem styles_on_styles (id : String) (first second : Styles) (root : Node) :
    (styles id second).on ((styles id first).on root) =
      (styles id (first.merge second)).on root := by
  have same : run [styles id first, styles id second] root =
      run [styles id (first.merge second)] root := by
    apply run_congr
    intro element
    rw [written_cons, written_cons, written_cons]
    apply congrArg (written [])
    by_cases here : element.id = id
    · let once : Element := { element with styles := element.styles.merge first }
      have firstDone : (styles id first).applied element = once := if_pos here
      have secondDone : (styles id second).applied once =
          { element with styles := (element.styles.merge first).merge second } := if_pos here
      have bothDone : (styles id (first.merge second)).applied element =
          { element with styles := element.styles.merge (first.merge second) } := if_pos here
      rw [firstDone, secondDone, bothDone, Styles.merge_assoc]
    · simp [applied, target, here]
  exact same

/-- A node gets a patch of one kind from at most one of two edits that are apart. -/
theorem Apart.one_reaches {first second : Restyle} (apart : first.Apart second) (id : String) :
    (layoutPatch? id first = none ∨ layoutPatch? id second = none) ∧
      (stylesPatch? id first = none ∨ stylesPatch? id second = none) := by
  cases first with
  | layout target patch =>
    cases second with
    | layout other otherPatch =>
      refine ⟨?_, Or.inl rfl⟩
      by_cases here : target = id
      · exact Or.inr (if_neg (here ▸ Ne.symm apart))
      · exact Or.inl (if_neg here)
    | styles other otherPatch => exact ⟨Or.inr rfl, Or.inl rfl⟩
  | styles target patch =>
    cases second with
    | layout other otherPatch => exact ⟨Or.inl rfl, Or.inr rfl⟩
    | styles other otherPatch =>
      refine ⟨Or.inl rfl, ?_⟩
      by_cases here : target = id
      · exact Or.inr (if_neg (here ▸ Ne.symm apart))
      · exact Or.inl (if_neg here)

theorem filterMap_swap {Patch : Type} {read : Restyle → Option Patch} {first second : Restyle}
    (one : read first = none ∨ read second = none) (front back : List Restyle) :
    (front ++ second :: first :: back).filterMap read =
      (front ++ first :: second :: back).filterMap read := by
  rw [List.filterMap_append, List.filterMap_append]
  apply congrArg
  rcases one with nothing | nothing
  · simp only [List.filterMap_cons, nothing]
  · simp only [List.filterMap_cons, nothing]

theorem run_swap {first second : Restyle} (apart : first.Apart second) (front back : List Restyle)
    (root : Node) :
    run (front ++ second :: first :: back) root = run (front ++ first :: second :: back) root := by
  apply run_eq_of_patches
  intro id
  obtain ⟨layout, styles⟩ := apart.one_reaches id
  exact ⟨filterMap_swap layout front back, filterMap_swap styles front back⟩

/-- On every tree, whether or not ids repeat in it, and for every run of edits. Each field of the
first node with an id has the value that was written last, every other entry of the tree is what it
was, and edits that are apart may change places. -/
theorem last_write_wins (edits : List Restyle) (root : Node) :
    let result := run edits root
    (∀ id node, root.find? id = some node →
      ∃ children, result.find? id = some ⟨written edits node.element, children⟩) ∧
    (∀ index, result.entries[index]? = root.entries[index]?.map fun entry =>
      if entry.1.id ∈ edits.map target ∧
          entry.1.id ∉ (root.entries.take index).map fun earlier => earlier.1.id
      then (written edits entry.1, entry.2) else entry) ∧
    (∀ id first second, (styles id second).on ((styles id first).on root) =
      (styles id (first.merge second)).on root) ∧
    (∀ front first second back, edits = front ++ first :: second :: back → first.Apart second →
      run (front ++ second :: first :: back) root = result) ∧
    ∀ others, (∀ id, others.filterMap (layoutPatch? id) = edits.filterMap (layoutPatch? id) ∧
      others.filterMap (stylesPatch? id) = edits.filterMap (stylesPatch? id)) →
        run others root = result := by
  intro result
  refine ⟨?_, ?_, ?_, ?_, ?_⟩
  · intro id node found
    exact find?_run edits found
  · exact entries_run_getElem? edits root
  · intro id first second
    exact styles_on_styles id first second root
  · rintro front first second back rfl apart
    exact run_swap apart front back root
  · intro others same
    exact run_eq_of_patches same root

/-- The width is written twice and the gap once, to the outer one of two nodes with one id. -/
theorem outer_twin_keeps_last_width :
    let inner : Node := .text "twin" "Inner"
    let outer : Node := (Node.frame "twin" "Outer").withChildren [inner]
    let root : Node := (Node.frame "root" "Root").withChildren [outer, .text "note" "Note"]
    let resize : Restyle := .layout "twin" { width := some 60 }
    let pad : Restyle := .styles "twin" { padding := some 8 }
    let edits : List Restyle := [.layout "twin" { width := some 40, gap := some 4 },
      .styles "absent" { padding := some 2 }, resize, pad]
    let styled : Element := { outer.element with
      layout := { width := 60, gap := some 4 }, styles := { padding := some 8 } }
    root.find? "twin" = some outer ∧ resize.Apart pad ∧
      (∃ children, (run edits root).find? "twin" = some ⟨styled, children⟩) ∧
      (run edits root).entries[2]? = some (inner.element, 0) ∧
      run [.layout "twin" { width := some 40, gap := some 4 },
        .styles "absent" { padding := some 2 }, pad, resize] root = run edits root := by
  intro inner outer root resize pad edits styled
  have found : root.find? "twin" = some outer := by decide +kernel
  have wrote : written edits outer.element = styled := by decide +kernel
  obtain ⟨fields, entries, -, swap, -⟩ := last_write_wins edits root
  obtain ⟨children, here⟩ := fields "twin" outer found
  rw [wrote] at here
  refine ⟨found, trivial, ⟨children, here⟩, ?_, ?_⟩
  · rw [entries 2]
    decide +kernel
  · exact swap [_, _] resize pad [] rfl trivial

end Restyle

end PageDesigner
