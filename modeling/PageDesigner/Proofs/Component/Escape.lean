import PageDesigner.Component.Escape

/-!
Both escapers go from character to character, and what they leave is undone by reading the character
references. Neither leaves a character that ends its place in a tag: no `<` and no brace is left in a
text, and no double quote in an attribute value. An ampersand is left only where a reference starts.
-/

namespace PageDesigner.Escape

theorem decode_cons_of_ne {c : Char} (plain : c ≠ '&') (rest : List Char) :
    decode (c :: rest) = c :: decode rest := by
  rw [decode]
  all_goals
    intro _ same
    cases same
    exact fun _ => plain rfl

/-- Wherever an ampersand stands, one of the references starts. -/
def Referenced (references : List String) (chars : List Char) : Prop :=
  ∀ after, '&' :: after <:+ chars → ∃ reference ∈ references, reference.toList <+: '&' :: after

section Reference

variable {references : List String} {escape : Char → List Char}

theorem referenced_cons {c : Char} {rest : List Char} (plain : c ≠ '&')
    (referenced : Referenced references rest) : Referenced references (c :: rest) := by
  intro after suffix
  rcases List.suffix_cons_iff.mp suffix with same | inside
  · injection same with ampersand
    exact absurd ampersand.symm plain
  · exact referenced after inside

theorem referenced_append {word rest : List Char} (plain : '&' ∉ word)
    (referenced : Referenced references rest) : Referenced references (word ++ rest) := by
  induction word with
  | nil => exact referenced
  | cons c word ih =>
    rw [List.mem_cons, not_or] at plain
    exact referenced_cons (Ne.symm plain.1) (ih plain.2)

/-- The text starts with the only ampersand in it. -/
def StartsOnce (reference : String) : Prop :=
  ∃ body, reference.toList = '&' :: body ∧ '&' ∉ body

instance (reference : String) : Decidable (StartsOnce reference) :=
  decidable_of_iff
    (reference.toList = '&' :: reference.toList.tail ∧ '&' ∉ reference.toList.tail)
    ⟨fun once => ⟨_, once⟩, fun ⟨body, spelled, once⟩ => by rw [spelled]; exact ⟨rfl, once⟩⟩

theorem referenced_reference {reference : String} {rest : List Char}
    (listed : reference ∈ references) (starts : StartsOnce reference)
    (referenced : Referenced references rest) :
    Referenced references (reference.toList ++ rest) := by
  obtain ⟨body, spelled, once⟩ := starts
  intro after suffix
  rw [spelled, List.cons_append] at suffix
  rcases List.suffix_cons_iff.mp suffix with same | inside
  · refine ⟨reference, listed, rest, ?_⟩
    rw [same, spelled, List.cons_append]
  · exact referenced_append once referenced after inside

/-- If each character stays, other than an ampersand, or gives way to a reference, then all
ampersands of the escaped text start references. -/
theorem referenced_flatMap
    (starts : ∀ reference ∈ references, StartsOnce reference)
    (each : ∀ c, (c ≠ '&' ∧ escape c = [c]) ∨ ∃ reference ∈ references, escape c = reference.toList)
    (chars : List Char) : Referenced references (chars.flatMap escape) := by
  induction chars with
  | nil => exact fun after suffix => absurd (List.suffix_nil.mp suffix) (List.cons_ne_nil _ _)
  | cons c rest ih =>
    rw [List.flatMap_cons]
    rcases each c with ⟨plain, stays⟩ | ⟨reference, listed, replaced⟩
    · rw [stays]
      exact referenced_cons plain ih
    · rw [replaced]
      exact referenced_reference listed (starts reference listed) ih

/-- If each escaped character reads as itself, so does a text of them. -/
theorem decode_flatMap (reads : ∀ c rest, decode (escape c ++ rest) = c :: decode rest)
    (chars : List Char) : decode (chars.flatMap escape) = chars := by
  induction chars with
  | nil => rfl
  | cons c rest ih => rw [List.flatMap_cons, reads, ih]

theorem not_mem_flatMap {stop : Char} (avoids : ∀ c, stop ∉ escape c) (chars : List Char) :
    stop ∉ chars.flatMap escape := by
  intro member
  obtain ⟨c, -, inside⟩ := List.mem_flatMap.mp member
  exact avoids c inside

end Reference

section Text

theorem decode_textChar (c : Char) (rest : List Char) :
    decode (textChar c ++ rest) = c :: decode rest := by
  unfold textChar
  split
  case h_6 plain _ _ _ _ => exact decode_cons_of_ne plain rest
  all_goals rfl

/-- What would end a text: the next tag, or an expression in braces. -/
def textEnds : List Char := ['<', '>', '{', '}']

theorem end_not_mem_textChar {stop : Char} (ends : stop ∈ textEnds) (c : Char) :
    stop ∉ textChar c := by
  intro member
  simp only [textEnds, List.mem_cons, List.not_mem_nil, or_false] at ends
  unfold textChar at member
  split at member
  case h_6 noTag noClosing noBrace noClosingBrace =>
    rw [List.mem_singleton] at member
    subst member
    rcases ends with tag | closing | brace | closingBrace
    · exact noTag tag
    · exact noClosing closing
    · exact noBrace brace
    · exact noClosingBrace closingBrace
  all_goals rcases ends with rfl | rfl | rfl | rfl <;> exact absurd member (by decide)

def textReferences : List String := ["&amp;", "&lt;", "&gt;", "&#123;", "&#125;"]

theorem textChar_cases (c : Char) :
    (c ≠ '&' ∧ textChar c = [c]) ∨
      ∃ reference ∈ textReferences, textChar c = reference.toList := by
  unfold textChar
  split
  case h_6 plain _ _ _ _ => exact .inl ⟨plain, rfl⟩
  all_goals exact .inr (by decide)

theorem decode_textChars (chars : List Char) : decode (textChars chars) = chars :=
  decode_flatMap decode_textChar chars

theorem end_not_mem_text {stop : Char} (ends : stop ∈ textEnds) (value : String) :
    stop ∉ (text value).toList := by
  rw [text, String.toList_ofList]
  exact not_mem_flatMap (end_not_mem_textChar ends) value.toList

theorem lt_not_mem_text (value : String) : '<' ∉ (text value).toList :=
  end_not_mem_text (by decide) value

theorem text_referenced (value : String) : Referenced textReferences (text value).toList := by
  rw [text, String.toList_ofList]
  exact referenced_flatMap (by decide) textChar_cases value.toList

theorem text_append (left right : String) : text (left ++ right) = text left ++ text right := by
  simp [text, textChars]

end Text

section Attribute

/-- What both replacements together make of one character. -/
def attributeChar (c : Char) : List Char :=
  if c = '&' then ['&', 'a', 'm', 'p', ';']
  else if c = '"' then ['&', 'q', 'u', 'o', 't', ';']
  else [c]

theorem attributeChars_eq_flatMap (chars : List Char) :
    attributeChars chars = chars.flatMap attributeChar := by
  unfold attributeChars replaceChar
  rw [List.flatMap_assoc]
  congr 1
  funext c
  unfold attributeChar
  by_cases ampersand : c = '&'
  · rw [if_pos ampersand, if_pos ampersand]
    rfl
  · rw [if_neg ampersand, if_neg ampersand, List.flatMap_singleton]

theorem decode_attributeChar (c : Char) (rest : List Char) :
    decode (attributeChar c ++ rest) = c :: decode rest := by
  unfold attributeChar
  split
  · rename_i ampersand
    rw [ampersand]
    rfl
  · rename_i plain
    split
    · rename_i quote
      rw [quote]
      rfl
    · exact decode_cons_of_ne plain rest

theorem quote_not_mem_attributeChar (c : Char) : '"' ∉ attributeChar c := by
  unfold attributeChar
  split
  · decide
  · split
    · decide
    · rename_i different
      exact fun member => different (List.mem_singleton.mp member).symm

def attributeReferences : List String := ["&amp;", "&quot;"]

theorem attributeChar_cases (c : Char) :
    (c ≠ '&' ∧ attributeChar c = [c]) ∨
      ∃ reference ∈ attributeReferences, attributeChar c = reference.toList := by
  unfold attributeChar
  split
  · exact .inr (by decide)
  · rename_i plain
    split
    · exact .inr (by decide)
    · exact .inl ⟨plain, rfl⟩

theorem decode_attributeChars (chars : List Char) : decode (attributeChars chars) = chars := by
  rw [attributeChars_eq_flatMap]
  exact decode_flatMap decode_attributeChar chars

theorem attributeValue_toList (value : String) :
    (attributeValue value).toList = value.toList.flatMap attributeChar := by
  rw [attributeValue, String.toList_ofList, attributeChars_eq_flatMap]

theorem quote_not_mem_attributeValue (value : String) : '"' ∉ (attributeValue value).toList := by
  rw [attributeValue_toList]
  exact not_mem_flatMap quote_not_mem_attributeChar value.toList

theorem attributeValue_referenced (value : String) :
    Referenced attributeReferences (attributeValue value).toList := by
  rw [attributeValue_toList]
  exact referenced_flatMap (by decide) attributeChar_cases value.toList

theorem attributeValue_append (left right : String) :
    attributeValue (left ++ right) = attributeValue left ++ attributeValue right := by
  rw [← String.toList_inj, String.toList_append, attributeValue_toList, attributeValue_toList,
    attributeValue_toList, String.toList_append, List.flatMap_append]

end Attribute

/-- Also of a value that already holds references, or parts of some. -/
theorem escaping_is_safe_and_undone (value : String) :
    (∀ stop ∈ textEnds, stop ∉ (text value).toList) ∧
    Referenced textReferences (text value).toList ∧
    '"' ∉ (attributeValue value).toList ∧
    Referenced attributeReferences (attributeValue value).toList ∧
    decode (text value).toList = value.toList ∧
    decode (attributeValue value).toList = value.toList ∧
    (∀ more, text (value ++ more) = text value ++ text more) ∧
    (∀ more, attributeValue (value ++ more) = attributeValue value ++ attributeValue more) ∧
    (attributeValue value).toList = value.toList.flatMap attributeChar := by
  refine ⟨fun _ ends => end_not_mem_text ends value, text_referenced value,
    quote_not_mem_attributeValue value, attributeValue_referenced value, ?_, ?_, text_append value,
    attributeValue_append value, attributeValue_toList value⟩
  · rw [text, String.toList_ofList]
    exact decode_textChars value.toList
  · rw [attributeValue, String.toList_ofList]
    exact decode_attributeChars value.toList

end PageDesigner.Escape
