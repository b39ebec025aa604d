import PageDesigner.Json.Record

/-!
Reading values back from what was written for them. A field of a record is read from the values
under its key, so where that key was written once or, for an unset value, not at all, the field
restores the value. In the other direction, whatever a field gives was decoded from some value of
the record or stands for an absent key, however the record is spelled.
-/

namespace PageDesigner

theorem Decoded.bind_eq_ok {α β : Type} {first : Decoded α} {next : α → Decoded β} {result : β} :
    (first >>= next) = .ok result ↔ ∃ value, first = .ok value ∧ next value = .ok result := by
  cases first with
  | error error => simp [bind, Except.bind]
  | ok value => simp [bind, Except.bind]

namespace Json

/-- The value reads back from its own JSON, which is not the one of an unset value. -/
structure Restores {α : Type} (encode : α → Json) (decode : Json → Decoded α) (value : α) : Prop where
  notNull : encode value ≠ .null
  decoded : decode (encode value) = .ok value

section Restores

variable {α : Type} {encode : α → Json} {decode : Json → Decoded α}

theorem restores_text (value : String) : Restores .text asText value := ⟨nofun, rfl⟩

theorem restores_natural (value : UInt64) :
    Restores (fun value => .number (.natural value)) asNatural value :=
  ⟨nofun, rfl⟩

theorem ofFloat_of_isFinite {value : Float} (finite : value.isFinite = true) :
    ofFloat value = .number (.real value) := by
  rw [ofFloat, if_pos finite]

theorem restores_float {value : Float} (finite : value.isFinite = true) :
    Restores ofFloat asFloat value := by
  constructor
  · rw [ofFloat_of_isFinite finite]
    nofun
  · rw [ofFloat_of_isFinite finite, asFloat]
    exact if_pos finite

theorem restores_floats {option : Option Float} (finite : ∀ value ∈ option, value.isFinite = true) :
    ∀ value ∈ option, Restores ofFloat asFloat value :=
  fun value member => restores_float (finite value member)

theorem asOption_of_restores {value : α} (restores : Restores encode decode value) :
    asOption decode (encode value) = .ok (some value) := by
  have notNull := restores.notNull
  have decoded := restores.decoded
  generalize encode value = json at notNull decoded
  cases json with
  | null => exact absurd rfl notNull
  | _ =>
    rw [asOption, decoded]
    · rfl
    · nofun

theorem allOf_map {values : List α} (restores : ∀ value ∈ values, Restores encode decode value) :
    allOf decode (values.map encode) = .ok values := by
  induction values with
  | nil => rfl
  | cons value values ih =>
    have first := (restores value List.mem_cons_self).decoded
    have rest := ih fun other member => restores other (List.mem_cons_of_mem value member)
    rw [List.map_cons, allOf, first, rest]

theorem restores_list {values : List α}
    (restores : ∀ value ∈ values, Restores encode decode value) :
    Restores (fun values => .array (values.map encode)) (asList decode) values :=
  ⟨nofun, allOf_map restores⟩

end Restores

section Decoded

variable {α : Type} {decode : Json → Decoded α} {Holds : α → Prop}

theorem asFloat_isFinite (json : Json) (value : Float) (read : asFloat json = .ok value) :
    value.isFinite = true := by
  unfold asFloat at read
  split at read
  · split at read
    · rename_i finite
      cases read
      exact finite
    · cases read
  · cases read

theorem asOption_ensures (each : ∀ json value, decode json = .ok value → Holds value)
    (json : Json) (option : Option α) (read : asOption decode json = .ok option) :
    ∀ value ∈ option, Holds value := by
  unfold asOption at read
  split at read
  · cases read
    nofun
  · cases decoded : decode json with
    | error error =>
      rw [decoded] at read
      cases read
    | ok inner =>
      rw [decoded] at read
      cases read
      rintro value ⟨⟩
      exact each json inner decoded

theorem allOf_ensures (each : ∀ json value, decode json = .ok value → Holds value) :
    ∀ (items : List Json) (values : List α), allOf decode items = .ok values →
      ∀ value ∈ values, Holds value
  | [], values, read => by
    cases read
    nofun
  | item :: items, values, read => by
    unfold allOf at read
    split at read
    · cases read
    · rename_i first decoded
      split at read
      · cases read
      · rename_i rest decodedRest
        cases read
        rw [List.forall_mem_cons]
        exact ⟨each item first decoded, allOf_ensures each items rest decodedRest⟩

theorem asList_ensures (each : ∀ json value, decode json = .ok value → Holds value)
    (json : Json) (values : List α) (read : asList decode json = .ok values) :
    ∀ value ∈ values, Holds value := by
  unfold asList at read
  split at read
  · exact allOf_ensures each _ values read
  · cases read

end Decoded

/-- The values under a key, in the order of the members. -/
def valuesOf (key : String) (members : List (String × Json)) : List Json :=
  (members.filter fun member => member.1 = key).map Prod.snd

@[simp] theorem valuesOf_nil (key : String) : valuesOf key [] = [] := rfl

@[simp] theorem valuesOf_cons (key name : String) (value : Json)
    (members : List (String × Json)) :
    valuesOf key ((name, value) :: members) =
      if name = key then value :: valuesOf key members else valuesOf key members := by
  by_cases same : name = key <;> simp [valuesOf, same]

@[simp] theorem valuesOf_append (key : String) (left right : List (String × Json)) :
    valuesOf key (left ++ right) = valuesOf key left ++ valuesOf key right := by
  simp [valuesOf]

@[simp] theorem valuesOf_present {α : Type} (key name : String) (encode : α → Json)
    (value : Option α) :
    valuesOf key (present name encode value) =
      if name = key then value.toList.map encode else [] := by
  cases value <;> simp [present]

end Json

namespace Fields

open Json

variable {α β : Type} {members : List (String × Json)}

/-- The fields are all found in the members, and together they give the value. -/
def Reads (fields : Fields α) (members : List (String × Json)) (value : α) : Prop :=
  fields.ofMembers members = .ok value

theorem occurrences_eq (key : String) (decode : Json → Decoded α) (position : Nat)
    (members : List (String × Json)) :
    (occurrences key decode position members).map Prod.snd =
      (valuesOf key members).map decode := by
  induction members generalizing position with
  | nil => rfl
  | cons member members ih =>
    obtain ⟨name, value⟩ := member
    rw [occurrences, valuesOf_cons]
    split
    · rw [List.map_cons, List.map_cons, ih]
    · exact ih (position + 1)

/-- A field by the values under its key: none of them, one, or too many. -/
def ValuesRead (absent : Except DecodeError α) (decode : Json → Decoded α) (value : α) :
    List Json → Prop
  | [] => absent = .ok value
  | [json] => decode json = .ok value
  | _ :: _ :: _ => False

theorem mapError_eq_ok {ε ε' : Type} {result : Except ε α} {f : ε → ε'} {value : α} :
    result.mapError f = .ok value ↔ result = .ok value := by
  cases result with
  | error error =>
    constructor <;>
      · intro read
        cases read
  | ok other =>
    constructor <;>
      · intro read
        cases read
        rfl

theorem single_iff {key : String} {absent : Except DecodeError α} {toFault : DecodeError → Fault}
    {decode : Json → Decoded α} {value : α} {given : List (Nat × Decoded α)} {values : List Json}
    (outcomes : given.map Prod.snd = values.map decode) :
    single key (absent.mapError toFault) given = .ok value ↔
      ValuesRead absent decode value values := by
  cases values with
  | nil =>
    rw [List.map_nil, List.map_eq_nil_iff] at outcomes
    rw [outcomes]
    exact mapError_eq_ok
  | cons json values =>
    rw [List.map_cons, List.map_eq_cons_iff] at outcomes
    obtain ⟨⟨position, outcome⟩, later, rfl, rfl, outcomes⟩ := outcomes
    cases values with
    | nil =>
      rw [List.map_nil, List.map_eq_nil_iff] at outcomes
      rw [outcomes]
      cases read : decode json <;> simp [single, ValuesRead, read]
    | cons next values =>
      rw [List.map_cons, List.map_eq_cons_iff] at outcomes
      obtain ⟨second, others, rfl, -⟩ := outcomes
      cases decode json <;> simp [single, ValuesRead]

section Parts

variable {fields : Fields α} {value : α}

theorem field_reads_iff {key : String} {hasDefault : Bool} {absent : Except DecodeError α}
    {decode : Json → Decoded α} :
    (field key hasDefault absent decode).Reads members value ↔
      ValuesRead absent decode value (valuesOf key members) :=
  single_iff (occurrences_eq key decode 0 members)

theorem reads_map_iff {f : α → β} {result : β} :
    (f <$> fields).Reads members result ↔
      ∃ value, fields.Reads members value ∧ f value = result := by
  change combine (.ok f) (fields.ofMembers members) = .ok result ↔
    ∃ value, fields.ofMembers members = .ok value ∧ _
  cases fields.ofMembers members <;> simp [combine]

theorem reads_seq_iff {fields : Fields (α → β)} {last : Fields α} {result : β} :
    (fields <*> last).Reads members result ↔
      ∃ f value, fields.Reads members f ∧ last.Reads members value ∧ f value = result := by
  change combine (fields.ofMembers members) (last.ofMembers members) = .ok result ↔
    ∃ f value, fields.ofMembers members = .ok f ∧ last.ofMembers members = .ok value ∧ _
  cases fields.ofMembers members <;> cases last.ofMembers members <;> simp [combine]

theorem decode_object_iff :
    fields.decode (.object members) = .ok value ↔ fields.Reads members value :=
  mapError_eq_ok

theorem decode_array_iff {items : List Json} :
    fields.decode (.array items) = .ok value ↔
      fields.Reads (fields.named items) value ∧ fields.fits items.length = true := by
  rw [Fields.decode, Reads]
  cases fields.ofMembers (fields.named items) with
  | error fault => simp
  | ok other => cases fields.fits items.length <;> simp

/-- However a record is spelled, it comes from values under the keys of its fields. -/
theorem reads_of_decode {json : Json} (read : fields.decode json = .ok value) :
    ∃ members, fields.Reads members value := by
  cases json with
  | object members => exact ⟨members, decode_object_iff.mp read⟩
  | array items => exact ⟨fields.named items, (decode_array_iff.mp read).1⟩
  | _ => cases read

end Parts

section Reads

variable {key : String} {hasDefault : Bool} {absent : Except DecodeError α} {encode : α → Json}
  {decode : Json → Decoded α} {value : α}

theorem field_reads_absent (missing : valuesOf key members = []) (standard : absent = .ok value) :
    (field key hasDefault absent decode).Reads members value := by
  rw [field_reads_iff, missing]
  exact standard

theorem field_reads {json : Json} (given : valuesOf key members = [json])
    (decoded : decode json = .ok value) :
    (field key hasDefault absent decode).Reads members value := by
  rw [field_reads_iff, given]
  exact decoded

theorem required_reads (given : valuesOf key members = [encode value])
    (restores : Restores encode decode value) : (required key decode).Reads members value :=
  field_reads given restores.decoded

theorem defaulted_reads {standard : α} (given : valuesOf key members = [encode value])
    (restores : Restores encode decode value) :
    (defaulted key standard decode).Reads members value :=
  field_reads given restores.decoded

/-- Where an unset value is left out. -/
theorem optional_reads_present {option : Option α}
    (given : valuesOf key members = option.toList.map encode)
    (restores : ∀ value ∈ option, Restores encode decode value) :
    (optional key decode hasDefault).Reads members option := by
  cases option with
  | none => exact field_reads_absent given rfl
  | some value => exact field_reads given (asOption_of_restores (restores value rfl))

/-- Where an unset value is written as `null`. -/
theorem optional_reads_ofOption {option : Option α}
    (given : valuesOf key members = [ofOption encode option])
    (restores : ∀ value ∈ option, Restores encode decode value) :
    (optional key decode hasDefault).Reads members option := by
  cases option with
  | none => exact field_reads given rfl
  | some value => exact field_reads given (asOption_of_restores (restores value rfl))

theorem Reads.map {fields : Fields α} (reads : fields.Reads members value) (f : α → β) :
    (f <$> fields).Reads members (f value) :=
  reads_map_iff.mpr ⟨value, reads, rfl⟩

theorem Reads.seq {fields : Fields (α → β)} {last : Fields α} {f : α → β}
    (reads : fields.Reads members f) (readsLast : last.Reads members value) :
    (fields <*> last).Reads members (f value) :=
  reads_seq_iff.mpr ⟨f, value, reads, readsLast, rfl⟩

theorem restores_of_reads {fields : Fields α} (object : encode value = .object members)
    (reads : fields.Reads members value) : Restores encode fields.decode value := by
  constructor
  · rw [object]
    nofun
  · rw [object]
    exact decode_object_iff.mpr reads

end Reads

section Decoded

variable {key : String} {hasDefault : Bool} {absent : Except DecodeError α}
  {decode : Json → Decoded α} {Holds : α → Prop} {value : α}

theorem field_ok (read : (field key hasDefault absent decode).Reads members value) :
    absent = .ok value ∨ ∃ json, decode json = .ok value := by
  rw [field_reads_iff] at read
  match valuesOf key members, read with
  | [], standard => exact .inl standard
  | [json], decoded => exact .inr ⟨json, decoded⟩

/-- Whatever comes out of the fields has the property. -/
def Gives (fields : Fields α) (Holds : α → Prop) : Prop :=
  ∀ members value, fields.Reads members value → Holds value

theorem gives_any (fields : Fields α) : fields.Gives fun _ => True := fun _ _ _ => trivial

theorem required_gives (each : ∀ json value, decode json = .ok value → Holds value) :
    (required key decode).Gives Holds := by
  intro members value read
  rcases field_ok read with absent | ⟨json, decoded⟩
  · cases absent
  · exact each json value decoded

theorem defaulted_gives {standard : α} (standardHolds : Holds standard)
    (each : ∀ json value, decode json = .ok value → Holds value) :
    (defaulted key standard decode).Gives Holds := by
  intro members value read
  rcases field_ok read with absent | ⟨json, decoded⟩
  · cases absent
    exact standardHolds
  · exact each json value decoded

theorem optional_gives (each : ∀ json value, decode json = .ok value → Holds value) :
    (optional key decode hasDefault).Gives fun option => ∀ value ∈ option, Holds value := by
  intro members option read
  rcases field_ok read with absent | ⟨json, decoded⟩
  · cases absent
    nofun
  · exact asOption_ensures each json option decoded

theorem Gives.map {fields : Fields α} {f : α → β} {HoldsAfter : β → Prop}
    (gives : fields.Gives Holds) (after : ∀ value, Holds value → HoldsAfter (f value)) :
    (f <$> fields).Gives HoldsAfter := by
  intro members result read
  obtain ⟨value, reads, rfl⟩ := reads_map_iff.mp read
  exact after value (gives members value reads)

/-- Of the last field first: the fields before it give a function that keeps to what it is given. -/
theorem Gives.seq {fields : Fields (α → β)} {last : Fields α} {HoldsAfter : β → Prop}
    (givesLast : last.Gives Holds)
    (gives : fields.Gives fun f => ∀ value, Holds value → HoldsAfter (f value)) :
    (fields <*> last).Gives HoldsAfter := by
  intro members result read
  obtain ⟨f, value, reads, readsLast, rfl⟩ := reads_seq_iff.mp read
  exact gives members f reads value (givesLast members value readsLast)

theorem Gives.of_decode {fields : Fields α} (gives : fields.Gives Holds) (json : Json) (value : α)
    (read : fields.decode json = .ok value) : Holds value := by
  obtain ⟨members, reads⟩ := reads_of_decode read
  exact gives members value reads

end Decoded

end Fields
end PageDesigner
