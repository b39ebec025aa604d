import PageDesigner.Proofs.Json.Record

/-!
When two lists of members read the same. A field goes by the values under its key, and by their
order only where it refuses them anyway; so whatever keeps these values for each field of a record
keeps what the record gives. An array is read as members under the keys of the fields, so a change
to one item is a change to the value under one key.
-/

namespace PageDesigner

namespace Json

variable {α : Type} {decode : Json → Decoded α} {before after : Json}

/-- The decoder gives the same value or none for both. Unless they are one and the same, neither of
them stands for an unset value. -/
def Alike (decode : Json → Decoded α) (before after : Json) : Prop :=
  before = after ∨
    before ≠ .null ∧ after ≠ .null ∧ ∀ value, decode before = .ok value ↔ decode after = .ok value

theorem Alike.decode_iff (alike : Alike decode before after) (value : α) :
    decode before = .ok value ↔ decode after = .ok value := by
  rcases alike with rfl | ⟨-, -, same⟩
  · rfl
  · exact same value

theorem asOption_of_ne_null {json : Json} (set : json ≠ .null) :
    asOption decode json = (decode json).map some := by
  cases json with
  | null => exact absurd rfl set
  | _ => rfl

theorem map_some_eq_ok {decoded : Decoded α} {option : Option α} :
    decoded.map some = .ok option ↔ ∃ value, decoded = .ok value ∧ some value = option := by
  cases decoded <;> simp [Except.map]

theorem Alike.option (alike : Alike decode before after) :
    Alike (asOption decode) before after := by
  rcases alike with rfl | ⟨set, setAfter, same⟩
  · exact .inl rfl
  · refine .inr ⟨set, setAfter, fun option => ?_⟩
    rw [asOption_of_ne_null set, asOption_of_ne_null setAfter, map_some_eq_ok, map_some_eq_ok]
    simp only [same]

theorem allOf_cons_eq_ok {item : Json} {items : List Json} {values : List α} :
    allOf decode (item :: items) = .ok values ↔
      ∃ first rest, decode item = .ok first ∧ allOf decode items = .ok rest ∧
        first :: rest = values := by
  rw [allOf]
  cases decode item with
  | error error => simp
  | ok first => cases allOf decode items <;> simp

theorem Alike.item (alike : Alike decode before after) (front back : List Json) :
    Alike (asList decode) (.array (front ++ before :: back)) (.array (front ++ after :: back)) := by
  refine .inr ⟨nofun, nofun, ?_⟩
  simp only [asList]
  induction front with
  | nil =>
    intro values
    simp only [List.nil_append, allOf_cons_eq_ok, alike.decode_iff]
  | cons first front ih =>
    intro values
    simp only [List.cons_append, allOf_cons_eq_ok, ih]

theorem valuesOf_perm (key : String) {members others : List (String × Json)}
    (same : members.Perm others) : (valuesOf key members).Perm (valuesOf key others) :=
  (same.filter _).map _

theorem valuesOf_eq_nil {key : String} {members : List (String × Json)}
    (absent : ∀ member ∈ members, member.1 ≠ key) : valuesOf key members = [] := by
  rw [valuesOf, List.filter_eq_nil_iff.mpr (by simpa using absent), List.map_nil]

end Json

namespace Fields

open Json

variable {α β : Type} {members others : List (String × Json)}

/-- The values that stand under a key of two records whose reader takes them for one. Those in
`same` mean the same in this place. -/
inductive ValuesAgree (isOptional : Bool) (same : Json → Json → Prop) :
    List Json → List Json → Prop
  | permuted {values others : List Json} : values.Perm others →
      ValuesAgree isOptional same values others
  | unset : isOptional = true → ValuesAgree isOptional same [.null] []
  | changed {before after : Json} (front back : List Json) : same before after →
      ValuesAgree isOptional same (front ++ before :: back) (front ++ after :: back)

/-- The fields give the same value or none for both lists of members. -/
def AgreeOn (fields : Fields α) (members others : List (String × Json)) : Prop :=
  ∀ value, fields.Reads members value ↔ fields.Reads others value

section Field

variable {key : String} {hasDefault : Bool} {decode : Json → Decoded α} {isOptional : Bool}
  {same : Json → Json → Prop}

theorem field_agrees {absent : Except DecodeError α}
    (agree : ValuesAgree isOptional same (valuesOf key members) (valuesOf key others))
    (unset : isOptional = true → decode .null = absent)
    (alike : ∀ before after, same before after → Alike decode before after) :
    (field key hasDefault absent decode).AgreeOn members others := by
  intro value
  rw [field_reads_iff, field_reads_iff]
  generalize valuesOf key members = values at agree
  generalize valuesOf key others = otherValues at agree
  cases agree with
  | permuted perm =>
    match values, otherValues, perm.length_eq with
    | [], [], _ => rfl
    | [json], [other], _ =>
      obtain rfl : json = other := List.singleton_inj.mp (List.perm_singleton.mp perm)
      rfl
    | _ :: _ :: _, _ :: _ :: _, _ => rfl
  | unset may =>
    show decode .null = .ok value ↔ absent = .ok value
    rw [unset may]
  | changed front back changed =>
    match front, back with
    | [], [] => exact (alike _ _ changed).decode_iff value
    | [], _ :: _ => rfl
    | [_], _ => rfl
    | _ :: _ :: _, _ => rfl

theorem required_agrees
    (agree : ValuesAgree false same (valuesOf key members) (valuesOf key others))
    (alike : ∀ before after, same before after → Alike decode before after) :
    (required key decode).AgreeOn members others :=
  field_agrees agree nofun alike

theorem defaulted_agrees {standard : α}
    (agree : ValuesAgree false same (valuesOf key members) (valuesOf key others))
    (alike : ∀ before after, same before after → Alike decode before after) :
    (defaulted key standard decode).AgreeOn members others :=
  field_agrees agree nofun alike

theorem optional_agrees
    (agree : ValuesAgree true same (valuesOf key members) (valuesOf key others))
    (alike : ∀ before after, same before after → Alike decode before after) :
    (optional key decode hasDefault).AgreeOn members others :=
  field_agrees agree (fun _ => rfl) fun before after changed => (alike before after changed).option

end Field

theorem AgreeOn.map {fields : Fields α} (agree : fields.AgreeOn members others) (f : α → β) :
    (f <$> fields).AgreeOn members others := by
  intro result
  simp only [reads_map_iff, agree _]

theorem AgreeOn.seq {fields : Fields (α → β)} {last : Fields α}
    (agree : fields.AgreeOn members others) (agreeLast : last.AgreeOn members others) :
    (fields <*> last).AgreeOn members others := by
  intro result
  simp only [reads_seq_iff, agree _, agreeLast _]

/-- Whatever item stands in the place of a field, it is the value under the field's key, and the
members before and after it are the same. -/
theorem named_split {fields : Fields α} {front : List Json} {key : String}
    (placed : fields.keys[front.length]? = some key) (back : List Json) :
    ∃ before after, ∀ item,
      fields.named (front ++ item :: back) = before ++ (key, item) :: after := by
  obtain ⟨inside, rfl⟩ := List.getElem?_eq_some_iff.mp placed
  refine ⟨(fields.keys.take front.length).zip front,
    (fields.keys.drop (front.length + 1)).zip back, fun item => ?_⟩
  have sameLength : (fields.keys.take front.length).length = front.length :=
    List.length_take_of_le (Nat.le_of_lt inside)
  calc
    fields.keys.zip (front ++ item :: back) =
        (fields.keys.take front.length ++ fields.keys.drop front.length).zip
          (front ++ item :: back) := by rw [List.take_append_drop]
    _ = (fields.keys.take front.length).zip front ++
          (fields.keys.drop front.length).zip (item :: back) := List.zip_append sameLength
    _ = _ := by rw [← List.getElem_cons_drop inside, List.zip_cons_cons]

theorem AgreeOn.object_iff {fields : Fields α} (agree : fields.AgreeOn members others) (value : α) :
    fields.decode (.object members) = .ok value ↔ fields.decode (.object others) = .ok value := by
  rw [decode_object_iff, decode_object_iff]
  exact agree value

theorem AgreeOn.array_iff {fields : Fields α} {items other : List Json}
    (agree : fields.AgreeOn (fields.named items) (fields.named other))
    (sameLength : items.length = other.length) (value : α) :
    fields.decode (.array items) = .ok value ↔ fields.decode (.array other) = .ok value := by
  rw [decode_array_iff, decode_array_iff, agree value, sameLength]

end Fields
end PageDesigner
