import PageDesigner.Exchange.Node
import PageDesigner.Proofs.Exchange.Layout
import PageDesigner.Tree.Order

/-!
Nodes of any depth and partial elements read back from their JSON. The decoder of nodes recurses
into the values under the key of the children; it comes to the decoder of a record in which the
children are a list of nodes.
-/

namespace PageDesigner

open Json Fields

theorem Kind.restores (kind : Kind) : Restores toJson ofJson kind :=
  ⟨nofun, by cases kind <;> rfl⟩

theorem Content.restores (content : Content) : Restores toJson ofJson content := by
  refine restores_of_reads rfl ?_
  exact (optional_reads_present (by simp) fun text _ => restores_text text).map mk
    |>.seq (optional_reads_present (by simp) fun src _ => restores_text src)
    |>.seq (optional_reads_present (by simp) fun alt _ => restores_text alt)

namespace ElementPatch

def floats (patch : ElementPatch) : List Float :=
  patch.layout.toList.flatMap Layout.floats ++ patch.styles.toList.flatMap Styles.floats

theorem restores {patch : ElementPatch} (finite : AllFinite patch.floats) :
    Restores toJson ofJson patch := by
  simp only [floats, AllFinite.append_iff, AllFinite.flatMap_iff, Option.mem_toList] at finite
  obtain ⟨layout, styles⟩ := finite
  refine restores_of_reads rfl ?_
  exact (optional_reads_ofOption (by simp) fun name _ => restores_text name).map mk
    |>.seq (optional_reads_ofOption (by simp) fun value member =>
      Layout.restores (layout value member))
    |>.seq (optional_reads_ofOption (by simp) fun value member =>
      Styles.restores (styles value member))
    |>.seq (optional_reads_ofOption (by simp) fun content _ => content.restores)

theorem finite_of_decoded (json : Json) (patch : ElementPatch) (read : ofJson json = .ok patch) :
    AllFinite patch.floats := by
  have gives : fields.Gives fun patch => AllFinite patch.floats := by
    refine .seq (gives_any _) <| .seq (optional_gives Styles.finite_of_decoded) <|
      .seq (optional_gives Layout.finite_of_decoded) <| .map (gives_any _) ?_
    intro _ _ layout hlayout styles hstyles _ _
    simp only [floats, AllFinite.append_iff, AllFinite.flatMap_iff, Option.mem_toList]
    exact ⟨hlayout, hstyles⟩
  exact gives.of_decode json patch read

end ElementPatch

def Element.floats (element : Element) : List Float := element.layout.floats ++ element.styles.floats

namespace Node

/-- Those of the node and of all nodes inside it. -/
def floats (root : Node) : List Float := root.preorder.flatMap fun node => node.element.floats

theorem allFinite_floats_mk (element : Element) (children : List Node) :
    AllFinite (floats ⟨element, children⟩) ↔
      AllFinite element.floats ∧ ∀ child ∈ children, AllFinite child.floats := by
  have inside : AllFinite ((preorderAll children).flatMap fun node => node.element.floats) ↔
      ∀ child ∈ children, AllFinite child.floats := by
    induction children with
    | nil => simp [preorderAll]
    | cons child children ih =>
      rw [preorderAll, List.flatMap_append, AllFinite.append_iff, ih, List.forall_mem_cons]
      rfl
  rw [floats, preorder, List.flatMap_cons, AllFinite.append_iff, inside]

theorem toJsonAll_eq_map (nodes : List Node) : toJsonAll nodes = nodes.map toJson := by
  induction nodes with
  | nil => rfl
  | cons node nodes ih => rw [toJsonAll, List.map_cons, ih]

theorem ofJsonAll_eq_allOf (items : List Json) : ofJsonAll items = allOf ofJson items := by
  induction items with
  | nil => rfl
  | cons item items ih =>
    rw [ofJsonAll, allOf, ih]
    cases ofJson item with
    | error _ => rfl
    | ok _ => cases allOf ofJson items <;> rfl

theorem ofJsonList_eq_asList (json : Json) : ofJsonList json = asList ofJson json := by
  cases json with
  | array items => exact ofJsonAll_eq_allOf items
  | _ => rfl

theorem childOccurrences_eq (position : Nat) (members : List (String × Json)) :
    childOccurrences position members =
      occurrences "children" (asList ofJson) position members := by
  induction members generalizing position with
  | nil => rfl
  | cons member members ih =>
    obtain ⟨name, value⟩ := member
    rw [childOccurrences, occurrences, ih, ofJsonList_eq_asList]

theorem childItems_eq (position : Nat) (keys : List String) (items : List Json) :
    childItems position keys items =
      occurrences "children" (asList ofJson) position (keys.zip items) := by
  induction items generalizing position keys with
  | nil => cases keys <;> rfl
  | cons item items ih =>
    cases keys with
    | nil => rfl
    | cons key keys => rw [childItems, List.zip_cons_cons, occurrences, ih, ofJsonList_eq_asList]

/-- The recursion of the decoder, undone: the children are a list like any other. -/
theorem ofJson_eq_decode :
    ofJson = (fields (.defaulted "children" [] (asList ofJson))).decode := by
  funext json
  cases json with
  | object members =>
    rw [ofJson, childOccurrences_eq]
    rfl
  | array items =>
    rw [ofJson, childItems_eq]
    rfl
  | _ => rfl

mutual

theorem restores : ∀ node : Node, AllFinite node.floats → Restores toJson ofJson node
  | ⟨element, children⟩, finite => by
    obtain ⟨own, inside⟩ := (allFinite_floats_mk element children).mp finite
    obtain ⟨layout, styles⟩ := (AllFinite.append_iff _ _).mp own
    have list := restores_list (restoresAll children inside)
    rw [ofJson_eq_decode]
    refine restores_of_reads (toJson.eq_1 element children) ?_
    exact (required_reads (by simp [elementMembers]) (restores_text _)).map _
      |>.seq (required_reads (by simp [elementMembers]) (Kind.restores _))
      |>.seq (required_reads (by simp [elementMembers]) (restores_text _))
      |>.seq (required_reads (by simp [elementMembers]) (Layout.restores layout))
      |>.seq (defaulted_reads (by simp [elementMembers]) (Styles.restores styles))
      |>.seq (optional_reads_present (by simp [elementMembers]) fun content _ => content.restores)
      |>.seq (defaulted_reads (by simp [elementMembers, toJsonAll_eq_map]) list)

theorem restoresAll : ∀ nodes : List Node, (∀ node ∈ nodes, AllFinite node.floats) →
    ∀ node ∈ nodes, Restores toJson ofJson node
  | [], _ => nofun
  | node :: nodes, finite => by
    rw [List.forall_mem_cons] at finite ⊢
    exact ⟨restores node finite.1, restoresAll nodes finite.2⟩

end

/-- The children of a decoded node are decoded nodes themselves. -/
theorem parts_of_decoded {json : Json} {node : Node} (read : ofJson json = .ok node) :
    AllFinite node.element.floats ∧ ∀ child ∈ node.children, ∃ json, ofJson json = .ok child := by
  have gives : (fields (.defaulted "children" [] (asList ofJson))).Gives fun node =>
      AllFinite node.element.floats ∧
        ∀ child ∈ node.children, ∃ json, ofJson json = .ok child := by
    have each : ∀ json nodes, asList ofJson json = .ok nodes →
        ∀ child ∈ nodes, ∃ json, ofJson json = .ok child :=
      asList_ensures fun json _ read => ⟨json, read⟩
    refine .seq (defaulted_gives nofun each) <| .seq (gives_any _) <|
      .seq (defaulted_gives AllFinite.nil Styles.finite_of_decoded) <|
      .seq (required_gives Layout.finite_of_decoded) <| .seq (gives_any _) <|
      .seq (gives_any _) <| .map (gives_any _) ?_
    intro _ _ _ _ _ _ layout hlayout styles hstyles _ _ children hchildren
    exact ⟨(AllFinite.append_iff _ _).mpr ⟨hlayout, hstyles⟩, hchildren⟩
  rw [ofJson_eq_decode] at read
  exact gives.of_decode json node read

-- By recursion on the decoded node. What its children were decoded from does not matter.
mutual

theorem finite_of_decoded : ∀ (json : Json) (node : Node), ofJson json = .ok node →
    AllFinite node.floats
  | _, ⟨element, children⟩, read => by
    obtain ⟨own, decoded⟩ := parts_of_decoded read
    exact (allFinite_floats_mk element children).mpr ⟨own, finite_of_allDecoded children decoded⟩

theorem finite_of_allDecoded : ∀ nodes : List Node,
    (∀ node ∈ nodes, ∃ json, ofJson json = .ok node) → ∀ node ∈ nodes, AllFinite node.floats
  | [], _ => nofun
  | node :: nodes, decoded => by
    rw [List.forall_mem_cons] at decoded ⊢
    obtain ⟨⟨json, read⟩, rest⟩ := decoded
    exact ⟨finite_of_decoded json node read, finite_of_allDecoded nodes rest⟩

end

end Node
end PageDesigner
