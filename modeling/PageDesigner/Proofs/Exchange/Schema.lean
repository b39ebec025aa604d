import PageDesigner.Exchange.Schema
import PageDesigner.Proofs.Exchange.RoundTrip
import PageDesigner.Proofs.Json.Agreement

/-!
Every record is read by the keys of its schema, so a rewording is read as the same value. For each
record the values under its keys decide, with the records in them read the same in turn. An array of
such values is read under the same keys, in their order.
-/

namespace PageDesigner

open Json Fields

namespace RecordType

def Value : RecordType → Type
  | layout => Layout
  | layoutPatch => LayoutPatch
  | styles => Styles
  | content => Content
  | elementPatch => ElementPatch
  | node => Node
  | page => Page
  | project => Project
  | options => Options
  | arguments _ => Command

def ofJson : (type : RecordType) → Json → Decoded type.Value
  | layout => Layout.ofJson
  | layoutPatch => LayoutPatch.ofJson
  | styles => Styles.ofJson
  | content => Content.ofJson
  | elementPatch => ElementPatch.ofJson
  | node => Node.ofJson
  | page => Page.ofJson
  | project => Project.ofJson
  | options => Options.ofJson
  | arguments command => fun json => do (← Command.variant? command).decode json

end RecordType

/-- Values that are read the same where the shape is expected. -/
def Shape.Same : Shape → Json → Json → Prop
  | plain => Eq
  | record type => Alike type.ofJson
  | list type => Alike (asList type.ofJson)
  | command => Alike Command.ofJson

namespace Shape

theorem plain_alike {α : Type} {decode : Json → Decoded α} (before after : Json)
    (same : plain.Same before after) : Alike decode before after := .inl same

theorem record_alike (type : RecordType) (before after : Json)
    (same : (record type).Same before after) : Alike type.ofJson before after := same

theorem list_alike (type : RecordType) (before after : Json)
    (same : (list type).Same before after) : Alike (asList type.ofJson) before after := same

end Shape

/-- The members have values that are read the same under each key of the record. -/
def RecordType.Agree (type : RecordType) (members others : List (String × Json)) : Prop :=
  ∀ name key, type.key? name = some key →
    ValuesAgree key.isOptional key.shape.Same (valuesOf name members) (valuesOf name others)

variable {members others : List (String × Json)}

namespace RecordType.Agree

variable {type : RecordType} {α : Type} {decode : Json → Decoded α} {name : String} {shape : Shape}

theorem required (agree : type.Agree members others) (known : type.key? name = some { shape })
    (alike : ∀ before after, shape.Same before after → Alike decode before after) :
    (Fields.required name decode).AgreeOn members others :=
  required_agrees (agree name _ known) alike

theorem defaulted {standard : α} (agree : type.Agree members others)
    (known : type.key? name = some { shape })
    (alike : ∀ before after, shape.Same before after → Alike decode before after) :
    (Fields.defaulted name standard decode).AgreeOn members others :=
  defaulted_agrees (agree name _ known) alike

theorem optional {hasDefault : Bool} (agree : type.Agree members others)
    (known : type.key? name = some { isOptional := true, shape })
    (alike : ∀ before after, shape.Same before after → Alike decode before after) :
    (Fields.optional name decode hasDefault).AgreeOn members others :=
  optional_agrees (agree name _ known) alike

theorem plain (agree : type.Agree members others) (known : type.key? name = some {}) :
    (Fields.required name decode).AgreeOn members others :=
  agree.required known Shape.plain_alike

theorem plainDefaulted {standard : α} (agree : type.Agree members others)
    (known : type.key? name = some {}) :
    (Fields.defaulted name standard decode).AgreeOn members others :=
  agree.defaulted known Shape.plain_alike

theorem plainOptional {hasDefault : Bool} (agree : type.Agree members others)
    (known : type.key? name = some { isOptional := true }) :
    (Fields.optional name decode hasDefault).AgreeOn members others :=
  agree.optional known Shape.plain_alike

end RecordType.Agree

/-- The record is read by these fields: they are declared in the order of its keys, and what stands
under the keys decides what they give. -/
structure RecordType.Describes (type : RecordType) {α : Type} (fields : Fields α) : Prop where
  keys : fields.keys = type.names
  agree : ∀ {members others}, type.Agree members others → fields.AgreeOn members others

section Records

theorem Layout.fields_described : RecordType.layout.Describes fields where
  keys := rfl
  agree agree :=
    (agree.plain (by rfl)).map mk
      |>.seq (agree.plain (by rfl))
      |>.seq (agree.plain (by rfl))
      |>.seq (agree.plain (by rfl))
      |>.seq (agree.plainOptional (by rfl))
      |>.seq (agree.plainOptional (by rfl))
      |>.seq (agree.plainOptional (by rfl))
      |>.seq (agree.plainOptional (by rfl))
      |>.seq (agree.plainOptional (by rfl))

theorem LayoutPatch.fields_described : RecordType.layoutPatch.Describes fields where
  keys := rfl
  agree agree :=
    (agree.plainOptional (by rfl)).map mk
      |>.seq (agree.plainOptional (by rfl))
      |>.seq (agree.plainOptional (by rfl))
      |>.seq (agree.plainOptional (by rfl))
      |>.seq (agree.plainOptional (by rfl))
      |>.seq (agree.plainOptional (by rfl))
      |>.seq (agree.plainOptional (by rfl))
      |>.seq (agree.plainOptional (by rfl))
      |>.seq (agree.plainOptional (by rfl))

theorem Styles.fields_described : RecordType.styles.Describes fields where
  keys := rfl
  agree agree :=
    (agree.plainOptional (by rfl)).map mk
      |>.seq (agree.plainOptional (by rfl))
      |>.seq (agree.plainOptional (by rfl))
      |>.seq (agree.plainOptional (by rfl))
      |>.seq (agree.plainOptional (by rfl))
      |>.seq (agree.plainOptional (by rfl))
      |>.seq (agree.plainOptional (by rfl))
      |>.seq (agree.plainOptional (by rfl))
      |>.seq (agree.plainOptional (by rfl))

theorem Content.fields_described : RecordType.content.Describes fields where
  keys := rfl
  agree agree :=
    (agree.plainOptional (by rfl)).map mk
      |>.seq (agree.plainOptional (by rfl))
      |>.seq (agree.plainOptional (by rfl))

theorem ElementPatch.fields_described : RecordType.elementPatch.Describes fields where
  keys := rfl
  agree agree :=
    (agree.plainOptional (by rfl)).map mk
      |>.seq (agree.optional (by rfl) (Shape.record_alike .layout))
      |>.seq (agree.optional (by rfl) (Shape.record_alike .styles))
      |>.seq (agree.optional (by rfl) (Shape.record_alike .content))

theorem Node.fields_described :
    RecordType.node.Describes (fields (.defaulted "children" [] (asList ofJson))) where
  keys := rfl
  agree agree :=
    (agree.plain (by rfl)).map _
      |>.seq (agree.plain (by rfl))
      |>.seq (agree.plain (by rfl))
      |>.seq (agree.required (by rfl) (Shape.record_alike .layout))
      |>.seq (agree.defaulted (by rfl) (Shape.record_alike .styles))
      |>.seq (agree.optional (by rfl) (Shape.record_alike .content))
      |>.seq (agree.defaulted (by rfl) (Shape.list_alike .node))

theorem Page.fields_described : RecordType.page.Describes fields where
  keys := rfl
  agree agree :=
    (agree.plain (by rfl)).map mk
      |>.seq (agree.plain (by rfl))
      |>.seq (agree.required (by rfl) (Shape.record_alike .node))

theorem Project.fields_described : RecordType.project.Describes fields where
  keys := rfl
  agree agree :=
    (agree.plain (by rfl)).map mk
      |>.seq (agree.plain (by rfl))
      |>.seq (agree.required (by rfl) (Shape.list_alike .page))

theorem Options.fields_described : RecordType.options.Describes fields where
  keys := rfl
  agree agree :=
    (agree.plainDefaulted (by rfl)).map mk
      |>.seq (agree.plainDefaulted (by rfl))
      |>.seq (agree.plainDefaulted (by rfl))
      |>.seq (agree.plainDefaulted (by rfl))

theorem Command.variants_described :
    ∀ variant ∈ variants, (RecordType.arguments variant.1).Describes variant.2 := by
  simp only [variants, List.forall_mem_cons]
  refine ⟨?createProject, ?addPage, ?deletePage, ?renamePage, ?setCurrentPage, ?addNode,
    ?updateNode, ?updateNodeLayout, ?updateNodeStyles, ?deleteNode, ?selectNode, ?setTool,
    ?setZoom, List.forall_mem_nil _⟩ <;> refine ⟨rfl, fun agree => ?_⟩
  case createProject => exact (agree.plain (by rfl)).map _
  case addPage => exact (agree.plain (by rfl)).map _
  case deletePage => exact (agree.plain (by rfl)).map _
  case renamePage => exact ((agree.plain (by rfl)).map _).seq (agree.plain (by rfl))
  case setCurrentPage => exact (agree.plain (by rfl)).map _
  case addNode =>
    exact ((agree.required (by rfl) (Shape.record_alike .node)).map _).seq
      (agree.plainOptional (by rfl))
  case updateNode =>
    exact ((agree.plain (by rfl)).map _).seq
      (agree.required (by rfl) (Shape.record_alike .elementPatch))
  case updateNodeLayout =>
    exact ((agree.plain (by rfl)).map _).seq
      (agree.required (by rfl) (Shape.record_alike .layoutPatch))
  case updateNodeStyles =>
    exact ((agree.plain (by rfl)).map _).seq
      (agree.required (by rfl) (Shape.record_alike .styles))
  case deleteNode => exact (agree.plain (by rfl)).map _
  case selectNode => exact (agree.plainOptional (by rfl)).map _
  case setTool => exact (agree.plain (by rfl)).map _
  case setZoom => exact (agree.plain (by rfl)).map _

theorem Command.arguments_eq_ok {name : String} {json : Json} {command : Command} :
    (RecordType.arguments name).ofJson json = .ok command ↔
      ∃ fields, variants.lookup name = some fields ∧ fields.decode json = .ok command := by
  change (variant? name >>= fun fields => fields.decode json) = .ok command ↔ _
  simp only [Decoded.bind_eq_ok, variant?_eq_ok]

theorem Command.arguments_iff_of_described {name : String} {before after : Json}
    (same : ∀ fields : Fields Command, (RecordType.arguments name).Describes fields →
      ∀ command, fields.decode before = .ok command ↔ fields.decode after = .ok command)
    (command : Command) :
    (RecordType.arguments name).ofJson before = .ok command ↔
      (RecordType.arguments name).ofJson after = .ok command := by
  rw [arguments_eq_ok, arguments_eq_ok]
  refine exists_congr fun fields => and_congr_right fun named => ?_
  obtain ⟨front, back, split, -⟩ := List.lookup_eq_some_iff.mp named
  exact same fields (variants_described (name, fields) (by simp [split])) command

/-- Two records are read the same if they are by whatever fields the record can have. -/
theorem RecordType.alike_of_described {type : RecordType} {before after : Json}
    (set : before ≠ .null) (setAfter : after ≠ .null)
    (same : ∀ fields : Fields type.Value, type.Describes fields →
      ∀ value, fields.decode before = .ok value ↔ fields.decode after = .ok value) :
    Alike type.ofJson before after := by
  refine .inr ⟨set, setAfter, ?_⟩
  cases type with
  | layout => exact same Layout.fields Layout.fields_described
  | layoutPatch => exact same LayoutPatch.fields LayoutPatch.fields_described
  | styles => exact same Styles.fields Styles.fields_described
  | content => exact same Content.fields Content.fields_described
  | elementPatch => exact same ElementPatch.fields ElementPatch.fields_described
  | node =>
    rw [ofJson, Node.ofJson_eq_decode]
    exact same _ Node.fields_described
  | page => exact same Page.fields Page.fields_described
  | project => exact same Project.fields Project.fields_described
  | options => exact same Options.fields Options.fields_described
  | arguments name => exact Command.arguments_iff_of_described same

theorem RecordType.Agree.alike {type : RecordType} (agree : type.Agree members others) :
    Alike type.ofJson (.object members) (.object others) :=
  alike_of_described nofun nofun fun _ described => (described.agree agree).object_iff

end Records

section Rewording

theorem agree_of_perm {type : RecordType} (same : members.Perm others) :
    type.Agree members others :=
  fun name _ _ => .permuted (valuesOf_perm name same)

theorem agree_of_extended {type : RecordType} {unknown : String} (front : List (String × Json))
    (value : Json) (back : List (String × Json)) (ignored : type.key? unknown = none) :
    type.Agree (front ++ back) (front ++ (unknown, value) :: back) := by
  intro name key known
  have different : unknown ≠ name := by
    rintro rfl
    rw [ignored] at known
    cases known
  simp only [valuesOf_append, valuesOf_cons, if_neg different]
  exact .permuted (List.Perm.refl _)

theorem agree_of_unset {type : RecordType} {unset : String} {key : Key}
    {front back : List (String × Json)} (known : type.key? unset = some key)
    (may : key.isOptional = true) (absent : ∀ member ∈ front ++ back, member.1 ≠ unset) :
    type.Agree (front ++ (unset, .null) :: back) (front ++ back) := by
  rw [List.forall_mem_append] at absent
  intro name other otherKnown
  simp only [valuesOf_append, valuesOf_cons]
  by_cases same : unset = name
  · subst same
    obtain rfl : key = other := Option.some_inj.mp (known.symm.trans otherKnown)
    rw [if_pos rfl, valuesOf_eq_nil absent.1, valuesOf_eq_nil absent.2]
    exact .unset may
  · rw [if_neg same]
    exact .permuted (List.Perm.refl _)

theorem agree_of_member {type : RecordType} {changed : String} {key : Key} {before after : Json}
    (front back : List (String × Json)) (known : type.key? changed = some key)
    (same : key.shape.Same before after) :
    type.Agree (front ++ (changed, before) :: back) (front ++ (changed, after) :: back) := by
  intro name other otherKnown
  simp only [valuesOf_append, valuesOf_cons]
  by_cases sameName : changed = name
  · subst sameName
    obtain rfl : key = other := Option.some_inj.mp (known.symm.trans otherKnown)
    rw [if_pos rfl, if_pos rfl]
    exact .changed _ _ same
  · rw [if_neg sameName, if_neg sameName]
    exact .permuted (List.Perm.refl _)

theorem alike_of_place {type : RecordType} {name : String} {key : Key} {before after : Json}
    (front back : List Json) (placed : type.names[front.length]? = some name)
    (known : type.key? name = some key) (same : key.shape.Same before after) :
    Alike type.ofJson (.array (front ++ before :: back)) (.array (front ++ after :: back)) := by
  refine RecordType.alike_of_described nofun nofun fun fields described => ?_
  rw [← described.keys] at placed
  obtain ⟨start, rest, split⟩ := named_split placed back
  have agree := described.agree (agree_of_member start rest known same)
  rw [← split, ← split] at agree
  exact agree.array_iff (by simp only [List.length_append, List.length_cons])

theorem Command.ofJson_eq_ok {name : String} {body : Json} {others : List (String × Json)}
    {command : Command} :
    ofJson (.object ((name, body) :: others)) = .ok command ↔
      (RecordType.arguments name).ofJson body = .ok command ∧ others = [] := by
  rw [arguments_eq_ok, ofJson]
  cases others <;> simp [Decoded.bind_eq_ok, variant?_eq_ok]

theorem Command.alike_of_arguments {name : String} {before after : Json}
    (alike : Alike (RecordType.arguments name).ofJson before after) :
    Alike ofJson (.object [(name, before)]) (.object [(name, after)]) := by
  refine .inr ⟨nofun, nofun, fun command => ?_⟩
  rw [ofJson_eq_ok, ofJson_eq_ok, alike.decode_iff command]

/-- By induction on where the change is made. -/
theorem Rewording.same {shape : Shape} {before after : Json}
    (rewording : Rewording shape before after) : shape.Same before after := by
  induction rewording with
  | permuted same => exact (agree_of_perm same).alike
  | extended front value back ignored => exact (agree_of_extended front value back ignored).alike
  | unset front back known may absent => exact (agree_of_unset known may absent).alike
  | member front back known _ same => exact (agree_of_member front back known same).alike
  | place front back placed known _ same => exact alike_of_place front back placed known same
  | item front back _ same => exact Alike.item same front back
  | arguments _ same => exact Command.alike_of_arguments same

end Rewording

end PageDesigner
