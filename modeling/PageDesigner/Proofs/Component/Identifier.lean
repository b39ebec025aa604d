import PageDesigner.Proofs.Component.Name
import PageDesigner.Proofs.Component.Words

/-!
The name of a component is told by the words of the page's name. With an ending of letters and
digits that starts in upper case it is an identifier that names itself, and apart from case it is
spelled by the letters and digits of the page's name.
-/

namespace PageDesigner

def partsWords (c : Char) : Bool := !c.isAlphanum

def capitalizedWords (pageName : List Char) : List Char :=
  (wordsOf partsWords pageName).flatMap capitalize

/-- A letter in upper case, or a digit behind an underscore, and letters and digits after it. -/
inductive Identifier : List Char → Prop
  | letter {first : Char} {rest : List Char} : first.isUpper = true →
      (∀ c ∈ rest, c.isAlphanum = true) → Identifier (first :: rest)
  | digit {first : Char} {rest : List Char} : first.isDigit = true →
      (∀ c ∈ rest, c.isAlphanum = true) → Identifier ('_' :: first :: rest)

/-- Nothing in the text belongs to a word. -/
def Gap (text : String) : Prop := ∀ c ∈ text.toList, partsWords c = true

instance (text : String) : Decidable (Gap text) :=
  List.decidableBAll (fun c => partsWords c = true) text.toList

theorem flatMap_filter_nonempty (parts : List (List Char)) :
    (parts.filter (· ≠ [])).flatMap capitalize = parts.flatMap capitalize := by
  induction parts with
  | nil => rfl
  | cons part parts ih =>
    cases part with
    | nil => exact ih
    | cons first rest =>
      rw [List.filter_cons_of_pos (by simp), List.flatMap_cons, ih, List.flatMap_cons]

/-- The first part goes on with the word before it, if there is one. -/
theorem joinWords_of_split {chars first : List Char} {rest : List (List Char)}
    (split : chars.splitOnP partsWords = first :: rest) (wordStart : Bool) :
    joinWords wordStart chars =
      (if wordStart then capitalize first else first) ++ rest.flatMap capitalize := by
  induction chars generalizing first rest wordStart with
  | nil =>
    cases split
    cases wordStart <;> rfl
  | cons c chars ih =>
    obtain ⟨next, parts, after⟩ := List.exists_cons_of_ne_nil (List.splitOnP_ne_nil partsWords chars)
    rw [List.splitOnP_cons_eq_if_modifyHead, after] at split
    unfold joinWords
    cases word : c.isAlphanum with
    | true =>
      rw [if_neg (by simp [partsWords, word])] at split
      cases split
      rw [if_pos rfl, ih after false]
      cases wordStart <;> rfl
    | false =>
      rw [if_pos (by simp [partsWords, word])] at split
      cases split
      rw [if_neg (by decide), ih after true]
      cases wordStart <;> rfl

theorem joinWords_eq_capitalizedWords (chars : List Char) :
    joinWords true chars = capitalizedWords chars := by
  obtain ⟨first, rest, split⟩ := List.exists_cons_of_ne_nil (List.splitOnP_ne_nil partsWords chars)
  rw [joinWords_of_split split, capitalizedWords, wordsOf, flatMap_filter_nonempty, split]
  rfl

theorem componentName_toList (pageName ending : String) :
    (componentName pageName ending).toList =
      shieldDigit (endWith ending.toList (capitalizedWords pageName.toList)) := by
  rw [componentName, String.toList_ofList, joinWords_eq_capitalizedWords]

theorem componentName_congr {pageName other : String} (ending : String)
    (same : wordsOf partsWords pageName.toList = wordsOf partsWords other.toList) :
    componentName pageName ending = componentName other ending := by
  rw [← String.toList_inj, componentName_toList, componentName_toList, capitalizedWords,
    capitalizedWords, same]

/-- Starts like a word that was capitalised, and holds letters and digits only. -/
structure Capitalized (name : List Char) : Prop where
  plain : ∀ c ∈ name, c.isAlphanum = true
  upper : ∀ c ∈ name.head?, c.toUpper = c

theorem capitalizedWords_capitalized (pageName : List Char) :
    Capitalized (capitalizedWords pageName) := by
  rw [← joinWords_eq_capitalizedWords]
  refine ⟨joinWords_isAlphanum true pageName, ?_⟩
  induction pageName with
  | nil => nofun
  | cons c rest ih =>
    unfold joinWords
    split
    · rintro _ ⟨⟩
      exact toUpper_toUpper c
    · exact ih

theorem capitalize_of_capitalized {name : List Char} (capitalized : Capitalized name) :
    capitalizedWords name = name := by
  cases name with
  | nil => rfl
  | cons first rest =>
    have joined : ∀ c ∈ first :: rest, partsWords c = false := by
      intro c member
      simp [partsWords, capitalized.plain c member]
    rw [capitalizedWords, wordsOf_eq_singleton (List.cons_ne_nil _ _) joined,
      List.flatMap_singleton, capitalize, capitalized.upper first rfl]

theorem capitalizedWords_shieldDigit {name : List Char} (capitalized : Capitalized name) :
    capitalizedWords (shieldDigit name) = name := by
  have underscore : partsWords '_' = true := rfl
  unfold shieldDigit
  split
  · rfl
  · split
    · rw [capitalizedWords, wordsOf_cons _ underscore]
      exact capitalize_of_capitalized capitalized
    · exact capitalize_of_capitalized capitalized

theorem suffix_endWith (ending name : List Char) : ending <:+ endWith ending name := by
  unfold endWith
  split
  · rename_i suffix
    exact List.isSuffixOf_iff_suffix.mp suffix
  · exact List.suffix_append name ending

theorem endWith_of_suffix {ending name : List Char} (suffix : ending <:+ name) :
    endWith ending name = name := by
  rw [endWith, if_pos (List.isSuffixOf_iff_suffix.mpr suffix)]

theorem suffix_shieldDigit {ending name : List Char} (suffix : ending <:+ name) :
    ending <:+ shieldDigit name := by
  unfold shieldDigit
  split
  · exact suffix
  · split
    · exact suffix.trans (List.suffix_cons _ _)
    · exact suffix

theorem endWith_capitalized {ending name : List Char} (ends : Capitalized ending)
    (starts : Capitalized name) : Capitalized (endWith ending name) := by
  refine ⟨fun c member => ?_, ?_⟩
  · rcases mem_endWith member with inName | inEnding
    · exact starts.plain c inName
    · exact ends.plain c inEnding
  · unfold endWith
    split
    · exact starts.upper
    · cases name with
      | nil => exact ends.upper
      | cons first rest => exact starts.upper

theorem identifier_shieldDigit {name : List Char} (capitalized : Capitalized name)
    (nonempty : name ≠ []) : Identifier (shieldDigit name) := by
  cases name with
  | nil => exact absurd rfl nonempty
  | cons first rest =>
    have plain := List.forall_mem_cons.mp capitalized.plain
    unfold shieldDigit
    dsimp only
    split
    · rename_i digit
      exact .digit digit plain.2
    · rename_i noDigit
      have alpha : first.isAlpha = true := by simpa [Char.isAlphanum, noDigit] using plain.1
      exact .letter (isUpper_of_toUpper_eq alpha (capitalized.upper first rfl)) plain.2

section Letters

theorem capitalize_lower (word : List Char) :
    (capitalize word).map Char.toLower = word.map Char.toLower := by
  cases word with
  | nil => rfl
  | cons first rest => rw [capitalize, List.map_cons, toLower_toUpper, List.map_cons]

/-- Case apart, the words are spelled by the letters and digits of the name. -/
theorem capitalizedWords_lower (pageName : List Char) :
    (capitalizedWords pageName).map Char.toLower =
      (pageName.filter Char.isAlphanum).map Char.toLower := by
  have letters : (wordsOf partsWords pageName).flatten = pageName.filter Char.isAlphanum := by
    rw [flatten_wordsOf]
    simp [partsWords]
  have words (parts : List (List Char)) :
      (parts.flatMap capitalize).map Char.toLower = parts.flatten.map Char.toLower := by
    rw [List.map_flatMap, List.map_flatten]
    simp only [capitalize_lower, List.flatMap_def]
  rw [capitalizedWords, words, letters]

theorem dropWhile_shieldDigit {name : List Char} (plain : ∀ c ∈ name, c.isAlphanum = true) :
    (shieldDigit name).dropWhile (· = '_') = name := by
  have bare : name.dropWhile (· = '_') = name := by
    cases name with
    | nil => rfl
    | cons first rest =>
      refine List.dropWhile_cons_of_neg ?_
      rintro underscore
      have word := plain first List.mem_cons_self
      rw [of_decide_eq_true underscore] at word
      cases word
  unfold shieldDigit
  split
  · rfl
  · split
    · exact bare
    · exact bare

end Letters

/-- Of whatever name the page is, also of one without any letter or digit, where the ending is all
that is left. Which separators stand between words, before or after them does not matter. -/
theorem component_name_is_stable (pageName ending : String)
    (plain : ∀ c ∈ ending.toList, c.isAlphanum = true)
    (upper : ∃ first rest, ending.toList = first :: rest ∧ first.isUpper = true) :
    let name := componentName pageName ending
    let words := capitalizedWords pageName.toList
    Identifier name.toList ∧
      ending.toList <:+ name.toList ∧
      componentName name ending = name ∧
      (name.toList.dropWhile (· = '_')).map Char.toLower =
        (pageName.toList.filter Char.isAlphanum).map Char.toLower ++
          (if ending.toList <:+ words then [] else ending.toList.map Char.toLower) ∧
      (∀ gap, Gap gap → componentName (gap ++ pageName) ending = name ∧
        componentName (pageName ++ gap) ending = name) ∧
      ∀ left gap other right, pageName = left ++ gap ++ right → Gap gap → gap ≠ "" →
        Gap other → other ≠ "" → componentName (left ++ other ++ right) ending = name := by
  intro name words
  obtain ⟨first, rest, spelled, firstUpper⟩ := upper
  have ends : Capitalized ending.toList := by
    refine ⟨plain, ?_⟩
    rw [spelled]
    rintro _ ⟨⟩
    exact toUpper_of_isUpper firstUpper
  have full := endWith_capitalized ends (capitalizedWords_capitalized pageName.toList)
  have chars : name.toList = shieldDigit (endWith ending.toList words) :=
    componentName_toList pageName ending
  have suffix := suffix_endWith ending.toList words
  refine ⟨?identifier, ?ending, ?stable, ?letters, ?outside, ?between⟩
  case identifier =>
    rw [chars]
    refine identifier_shieldDigit full fun none => ?_
    rw [none, spelled] at suffix
    exact List.cons_ne_nil _ _ (List.suffix_nil.mp suffix)
  case ending =>
    rw [chars]
    exact suffix_shieldDigit suffix
  case stable =>
    rw [← String.toList_inj, componentName_toList, chars, capitalizedWords_shieldDigit full,
      endWith_of_suffix suffix]
  case letters =>
    rw [chars, dropWhile_shieldDigit full.plain, ← capitalizedWords_lower, endWith]
    by_cases already : ending.toList <:+ words
    · rw [if_pos (List.isSuffixOf_iff_suffix.mpr already), if_pos already, List.append_nil]
    · rw [if_neg (mt List.isSuffixOf_iff_suffix.mp already), if_neg already, List.map_append]
  case outside =>
    intro gap separators
    constructor
    · apply componentName_congr
      rw [String.toList_append, wordsOf_gap_append _ _ separators]
    · apply componentName_congr
      rw [String.toList_append, wordsOf_append_gap _ _ separators]
  case between =>
    rintro left gap other right rfl separators nonempty others otherNonempty
    have nonemptyChars : gap.toList ≠ [] := by simpa using nonempty
    have otherChars : other.toList ≠ [] := by simpa using otherNonempty
    apply componentName_congr
    simp only [String.toList_append]
    rw [wordsOf_append_gap_append _ _ otherChars others,
      wordsOf_append_gap_append _ _ nonemptyChars separators]

/-- The last word completes the ending, and the underscore before the digit is no part of a word. -/
theorem name_of_second_home_page_is_stable :
    let name := componentName "2nd home page" "Page"
    (∀ c ∈ "Page".toList, c.isAlphanum = true) ∧
      (∃ first rest, "Page".toList = first :: rest ∧ first.isUpper = true) ∧
      Gap " -- " ∧
      name = "_2ndHomePage" ∧ Identifier name.toList ∧ componentName name "Page" = name ∧
      componentName "2nd -- home page" "Page" = name ∧
      componentName " -- 2nd home page" "Page" = name := by
  intro name
  have plain : ∀ c ∈ "Page".toList, c.isAlphanum = true :=
    List.all_eq_true.mp (by decide +kernel)
  have upper : ∃ first rest, "Page".toList = first :: rest ∧ first.isUpper = true :=
    ⟨'P', ['a', 'g', 'e'], rfl, rfl⟩
  have blank : Gap " " := by decide +kernel
  have dashes : Gap " -- " := by decide +kernel
  have value : name = "_2ndHomePage" := by decide +kernel
  obtain ⟨identifier, -, stable, -, outside, between⟩ :=
    component_name_is_stable "2nd home page" "Page" plain upper
  have wider := between "2nd" " " " -- " "home page" rfl blank (by decide) dashes (by decide)
  exact ⟨plain, upper, dashes, value, identifier, stable, wider, (outside " -- " dashes).1⟩

end PageDesigner
