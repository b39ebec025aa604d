import PageDesigner.Component.Words

/-!
The words of a text hold the characters that do not separate, in order, and nothing else. Separators
beside one another, before the first word or after the last one make no difference to them.
-/

namespace PageDesigner

section Words

variable {separates : Char → Bool} {c : Char}

@[simp] theorem wordsOf_nil (separates : Char → Bool) : wordsOf separates [] = [] := rfl

theorem wordsOf_append_cons (left right : List Char) (separator : separates c = true) :
    wordsOf separates (left ++ c :: right) = wordsOf separates left ++ wordsOf separates right := by
  rw [wordsOf, List.splitOnP_append_cons left right separator, List.filter_append]
  rfl

theorem wordsOf_cons (rest : List Char) (separator : separates c = true) :
    wordsOf separates (c :: rest) = wordsOf separates rest :=
  wordsOf_append_cons [] rest separator

theorem wordsOf_eq_singleton {chars : List Char} (nonempty : chars ≠ [])
    (joined : ∀ c ∈ chars, separates c = false) : wordsOf separates chars = [chars] := by
  rw [wordsOf, List.splitOnP_eq_singleton joined]
  exact List.filter_cons_of_pos (decide_eq_true nonempty)

theorem wordsOf_gap_append (gap chars : List Char) (separators : ∀ c ∈ gap, separates c = true) :
    wordsOf separates (gap ++ chars) = wordsOf separates chars := by
  induction gap with
  | nil => rfl
  | cons first gap ih =>
    rw [List.forall_mem_cons] at separators
    rw [List.cons_append, wordsOf_cons _ separators.1, ih separators.2]

theorem wordsOf_append_gap (gap chars : List Char) (separators : ∀ c ∈ gap, separates c = true) :
    wordsOf separates (chars ++ gap) = wordsOf separates chars := by
  cases gap with
  | nil => rw [List.append_nil]
  | cons first gap =>
    rw [List.forall_mem_cons] at separators
    have last := wordsOf_gap_append gap [] separators.2
    rw [List.append_nil] at last
    rw [wordsOf_append_cons chars gap separators.1, last, wordsOf_nil, List.append_nil]

/-- Any gap parts the texts beside it. -/
theorem wordsOf_append_gap_append (left right : List Char) {gap : List Char} (nonempty : gap ≠ [])
    (separators : ∀ c ∈ gap, separates c = true) :
    wordsOf separates (left ++ gap ++ right) =
      wordsOf separates left ++ wordsOf separates right := by
  cases gap with
  | nil => exact absurd rfl nonempty
  | cons first gap =>
    rw [List.forall_mem_cons] at separators
    rw [List.append_assoc, List.cons_append, wordsOf_append_cons left _ separators.1,
      wordsOf_gap_append gap right separators.2]

theorem flatten_modifyHead_cons (c : Char) {parts : List (List Char)} (nonempty : parts ≠ []) :
    (parts.modifyHead (c :: ·)).flatten = c :: parts.flatten := by
  cases parts with
  | nil => exact absurd rfl nonempty
  | cons first rest => rfl

theorem flatten_splitOnP (separates : Char → Bool) (chars : List Char) :
    (chars.splitOnP separates).flatten = chars.filter fun c => !separates c := by
  induction chars with
  | nil => rfl
  | cons c rest ih =>
    rw [List.splitOnP_cons_eq_if_modifyHead]
    cases separator : separates c with
    | true =>
      rw [if_pos rfl, List.flatten_cons, List.nil_append, ih]
      exact (List.filter_cons_of_neg (by simp [separator])).symm
    | false =>
      rw [if_neg (by decide), flatten_modifyHead_cons c (List.splitOnP_ne_nil _ _), ih]
      exact (List.filter_cons_of_pos (by simp [separator])).symm

theorem flatten_wordsOf (separates : Char → Bool) (chars : List Char) :
    (wordsOf separates chars).flatten = chars.filter fun c => !separates c := by
  rw [wordsOf, List.flatten_filter_ne_nil, flatten_splitOnP]

theorem joined_of_mem_wordsOf {chars word : List Char} (member : word ∈ wordsOf separates chars) :
    ∀ c ∈ word, separates c = false := by
  intro c inside
  have kept := List.mem_flatten_of_mem member inside
  rw [flatten_wordsOf] at kept
  simpa using (List.mem_filter.mp kept).2

theorem wordsOf_ne_nil {chars : List Char} (member : c ∈ chars) (joined : separates c = false) :
    wordsOf separates chars ≠ [] := by
  intro none
  have kept : c ∈ chars.filter fun c => !separates c :=
    List.mem_filter.mpr ⟨member, by simp [joined]⟩
  rw [← flatten_wordsOf, none] at kept
  exact List.not_mem_nil kept

/-- Texts with a separator between them are split one by one. -/
theorem wordsOf_intercalate (separator : separates c = true) (texts : List (List Char)) :
    wordsOf separates ([c].intercalate texts) = texts.flatMap (wordsOf separates) := by
  induction texts with
  | nil => rfl
  | cons text texts ih =>
    cases texts with
    | nil => simp
    | cons next texts =>
      rw [List.intercalate_cons_cons, List.append_assoc, List.singleton_append,
        wordsOf_append_cons text _ separator, ih]
      rfl

/-- Splitting every text gives the texts again just if none of them holds a separator. -/
theorem flatMap_wordsOf_eq_self_iff {texts : List (List Char)} (nonempty : ∀ text ∈ texts, text ≠ []) :
    texts.flatMap (wordsOf separates) = texts ↔
      ∀ text ∈ texts, ∀ c ∈ text, separates c = false := by
  constructor
  · intro same text member
    rw [← same] at member
    obtain ⟨whole, -, inside⟩ := List.mem_flatMap.mp member
    exact joined_of_mem_wordsOf inside
  · intro joined
    induction texts with
    | nil => rfl
    | cons text texts ih =>
      rw [List.forall_mem_cons] at nonempty joined
      rw [List.flatMap_cons, wordsOf_eq_singleton nonempty.1 joined.1, ih nonempty.2 joined.2,
        List.singleton_append]

end Words

namespace Whitespace

variable (whitespace : Whitespace)

theorem words_intercalate (texts : List String) :
    whitespace.words (" ".intercalate texts) = texts.flatMap whitespace.words := by
  have blank : " ".toList = [' '] := rfl
  rw [words, String.toList_intercalate, blank, wordsOf_intercalate whitespace.blank,
    List.flatMap_map, List.map_flatMap]
  rfl

theorem words_ne_nil {text : String} {c : Char} (member : c ∈ text.toList)
    (visible : isVisibleAscii c = true) : whitespace.words text ≠ [] := by
  intro none
  exact wordsOf_ne_nil member (whitespace.visible c visible) (List.map_eq_nil_iff.mp none)

theorem map_ofList_eq_iff {parts : List (List Char)} {texts : List String} :
    parts.map String.ofList = texts ↔ parts = texts.map String.toList := by
  constructor <;>
    · rintro rfl
      simp

theorem flatMap_words_eq_self_iff {texts : List String} (nonempty : ∀ text ∈ texts, text ≠ "") :
    texts.flatMap whitespace.words = texts ↔ ∀ text ∈ texts, whitespace.AbsentFrom text := by
  have split : texts.flatMap whitespace.words =
      ((texts.map String.toList).flatMap (wordsOf whitespace.separates)).map String.ofList := by
    rw [List.flatMap_map, List.map_flatMap]
    rfl
  have nonemptyChars : ∀ chars ∈ texts.map String.toList, chars ≠ [] := by
    simpa [List.forall_mem_map] using nonempty
  rw [split, map_ofList_eq_iff, flatMap_wordsOf_eq_self_iff nonemptyChars, List.forall_mem_map]
  rfl

end Whitespace
end PageDesigner
