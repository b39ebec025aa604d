import PageDesigner.Component.Name

/-!
Component names are made of letters, digits and underscores, as long as the ending is. The case of a
letter is told by the range that its code is in.
-/

namespace PageDesigner

section Case

variable {c : Char}

theorem isUpper_iff : c.isUpper = true ↔ 65 ≤ c.toNat ∧ c.toNat ≤ 90 :=
  decide_eq_true_iff (p := 'A'.val ≤ c.val ∧ c.val ≤ 'Z'.val)

theorem isLower_iff : c.isLower = true ↔ 97 ≤ c.toNat ∧ c.toNat ≤ 122 := by
  show (decide ('a'.val ≤ c.val) && decide (c.val ≤ 'z'.val)) = true ↔ _
  rw [Bool.and_eq_true, decide_eq_true_eq, decide_eq_true_eq]
  exact Iff.rfl

theorem toUpper_of_not_isLower (notLower : ¬c.isLower = true) : c.toUpper = c := by
  rw [isLower_iff] at notLower
  exact dif_neg notLower

theorem toLower_of_not_isUpper (notUpper : ¬c.isUpper = true) : c.toLower = c := by
  rw [isUpper_iff] at notUpper
  exact dif_neg notUpper

theorem toNat_toUpper (lower : c.isLower = true) : c.toUpper.toNat = c.toNat - 32 := by
  have range := isLower_iff.mp lower
  have inRange : 'a'.val ≤ c.val ∧ c.val ≤ 'z'.val := range
  have code : c.toUpper.toNat = (c.val + ('A'.val - 'a'.val)).toNat := by
    unfold Char.toUpper
    rw [dif_pos inRange]
    rfl
  -- The sum wraps around, which takes 32 from the code.
  have shift : ('A'.val - 'a'.val).toNat = 2 ^ 32 - 32 := rfl
  rw [code, UInt32.toNat_add, Char.toNat_val]
  omega

theorem toNat_toLower (upper : c.isUpper = true) : c.toLower.toNat = c.toNat + 32 := by
  have range := isUpper_iff.mp upper
  have inRange : 'A'.val ≤ c.val ∧ c.val ≤ 'Z'.val := range
  have code : c.toLower.toNat = (c.val + ('a'.val - 'A'.val)).toNat := by
    unfold Char.toLower
    rw [dif_pos inRange]
    rfl
  have shift : ('a'.val - 'A'.val).toNat = 32 := rfl
  rw [code, UInt32.toNat_add, Char.toNat_val]
  omega

theorem isUpper_toUpper (lower : c.isLower = true) : c.toUpper.isUpper = true := by
  have range := isLower_iff.mp lower
  rw [isUpper_iff, toNat_toUpper lower]
  omega

theorem toUpper_of_isUpper (upper : c.isUpper = true) : c.toUpper = c := by
  have range := isUpper_iff.mp upper
  refine toUpper_of_not_isLower fun lower => ?_
  have other := isLower_iff.mp lower
  omega

theorem toUpper_toUpper (c : Char) : c.toUpper.toUpper = c.toUpper := by
  by_cases lower : c.isLower = true
  · exact toUpper_of_isUpper (isUpper_toUpper lower)
  · rw [toUpper_of_not_isLower lower, toUpper_of_not_isLower lower]

theorem toLower_toUpper (c : Char) : c.toUpper.toLower = c.toLower := by
  by_cases lower : c.isLower = true
  · have range := isLower_iff.mp lower
    have same : c.toLower = c := by
      refine toLower_of_not_isUpper fun upper => ?_
      have other := isUpper_iff.mp upper
      omega
    rw [same, ← Char.toNat_inj, toNat_toLower (isUpper_toUpper lower), toNat_toUpper lower]
    omega
  · rw [toUpper_of_not_isLower lower]

theorem isUpper_of_toUpper_eq (alpha : c.isAlpha = true) (same : c.toUpper = c) :
    c.isUpper = true := by
  rcases (Bool.or_eq_true _ _).mp alpha with upper | lower
  · exact upper
  · rw [← same]
    exact isUpper_toUpper lower

theorem toUpper_isAlphanum (word : c.isAlphanum = true) : c.toUpper.isAlphanum = true := by
  by_cases lower : c.isLower = true
  · have alpha : c.toUpper.isAlpha = true :=
      (Bool.or_eq_true _ _).mpr (.inl (isUpper_toUpper lower))
    exact (Bool.or_eq_true _ _).mpr (.inl alpha)
  · rw [toUpper_of_not_isLower lower]
    exact word

end Case

theorem joinWords_isAlphanum (wordStart : Bool) (chars : List Char) :
    ∀ c ∈ joinWords wordStart chars, c.isAlphanum = true := by
  induction chars generalizing wordStart with
  | nil => nofun
  | cons first rest ih =>
    unfold joinWords
    split
    · rename_i word
      intro c member
      rcases List.mem_cons.mp member with rfl | later
      · split
        · exact toUpper_isAlphanum word
        · exact word
      · exact ih false c later
    · exact ih true

theorem mem_endWith {ending name : List Char} {c : Char} (member : c ∈ endWith ending name) :
    c ∈ name ∨ c ∈ ending := by
  unfold endWith at member
  split at member
  · exact .inl member
  · exact List.mem_append.mp member

theorem mem_shieldDigit {name : List Char} {c : Char} (member : c ∈ shieldDigit name) :
    c = '_' ∨ c ∈ name := by
  unfold shieldDigit at member
  split at member
  · exact .inr member
  · split at member
    · exact List.mem_cons.mp member
    · exact .inr member

theorem componentName_chars (pageName : String) {ending : String}
    (plain : ∀ c ∈ ending.toList, c.isAlphanum = true) :
    ∀ c ∈ (componentName pageName ending).toList, c = '_' ∨ c.isAlphanum = true := by
  intro c member
  rw [componentName, String.toList_ofList] at member
  rcases mem_shieldDigit member with shield | member
  · exact .inl shield
  · rcases mem_endWith member with inName | inEnding
    · exact .inr (joinWords_isAlphanum true pageName.toList c inName)
    · exact .inr (plain c inEnding)

end PageDesigner
