/-!
Comparisons of doubles, by cases on what they unpack to. Of two doubles that are numbers, one is at
most the other, and those that compare equal to a common double compare equal to each other.
-/

namespace PageDesigner

open Float.Model

section Order

theorem unpacked_compare_swap (left right : UnpackedFloat) :
    right.compare left = (left.compare right).map Ordering.swap := by
  have finite (e f : Int) (m n : Nat) :
      (compare f e).then (compare n m) = ((compare e f).then (compare m n)).swap := by
    rw [Ordering.swap_then, ← Std.OrientedOrd.eq_swap, ← Std.OrientedOrd.eq_swap]
  cases left with
  | notANumber => cases right <;> rfl
  | zero s => cases right with
    | finite t n f hn => cases t <;> rfl
    | infinity t => cases t <;> rfl
    | _ => rfl
  | infinity s =>
    cases right with
    | infinity t => cases s <;> cases t <;> rfl
    | _ => cases s <;> rfl
  | finite s m e hm =>
    cases right with
    | finite t n f hn =>
      cases s with
      | positive => cases t with
        | positive => exact congrArg some (finite e f m n)
        | negative => rfl
      | negative => cases t with
        | positive => rfl
        | negative => exact congrArg (fun order => some order.swap) (finite e f m n)
    | infinity t => cases s <;> cases t <;> rfl
    | _ => cases s <;> rfl

theorem unpacked_compare_isSome {left right : UnpackedFloat} (leftNumber : left.isNaN = false)
    (rightNumber : right.isNaN = false) : ∃ order, left.compare right = some order := by
  cases left with
  | notANumber => cases leftNumber
  | zero s => cases right with
    | notANumber => cases rightNumber
    | finite t n f hn => cases t <;> exact ⟨_, rfl⟩
    | infinity t => cases t <;> exact ⟨_, rfl⟩
    | _ => exact ⟨_, rfl⟩
  | infinity s =>
    cases right with
    | notANumber => cases rightNumber
    | _ => cases s <;> exact ⟨_, rfl⟩
  | finite s m e hm =>
    cases right with
    | notANumber => cases rightNumber
    | finite t n f hn => cases s <;> cases t <;> exact ⟨_, rfl⟩
    | infinity t => cases s <;> cases t <;> exact ⟨_, rfl⟩
    | _ => cases s <;> exact ⟨_, rfl⟩

theorem float_lt_iff (left right : Float) :
    left < right ↔ left.toModel.unpack.compare right.toModel.unpack = some .lt := by
  change decide (left.toModel < right.toModel) = true ↔ _
  rw [decide_eq_true_iff]
  change UnpackedFloat.lt _ _ = true ↔ _
  simp [UnpackedFloat.lt]

theorem float_le_iff (left right : Float) :
    left ≤ right ↔ (left.toModel.unpack.compare right.toModel.unpack).any (·.isLE) = true := by
  change decide (left.toModel ≤ right.toModel) = true ↔ _
  rw [decide_eq_true_iff]
  rfl

theorem float_le_of_not_lt {left right : Float} (leftNumber : left.isNaN = false)
    (rightNumber : right.isNaN = false) (notLess : ¬left < right) : right ≤ left := by
  obtain ⟨order, compared⟩ := unpacked_compare_isSome leftNumber rightNumber
  rw [float_lt_iff, compared] at notLess
  rw [float_le_iff, unpacked_compare_swap, compared]
  cases order <;> simp_all

end Order

section Equality

theorem float_beq_iff (left right : Float) :
    (left == right) = true ↔ left.toModel.unpack.compare right.toModel.unpack = some .eq := by
  change (left.toModel.unpack.compare right.toModel.unpack == some .eq) = true ↔ _
  exact beq_iff_eq

theorem unpacked_compare_self {x : UnpackedFloat} (number : x.isNaN = false) :
    x.compare x = some .eq := by
  cases x with
  | notANumber => cases number
  | zero s => rfl
  | infinity s => cases s <;> rfl
  | finite s m e positive =>
    have same : (compare e e).then (compare m m) = .eq :=
      Ordering.then_eq_eq.mpr ⟨Int.compare_eq_eq.mpr rfl, Nat.compare_eq_eq.mpr rfl⟩
    cases s with
    | positive => exact congrArg some same
    | negative => exact congrArg (fun order => some order.swap) same

theorem float_beq_self {x : Float} (number : x.isNaN = false) : (x == x) = true :=
  (float_beq_iff x x).mpr (unpacked_compare_self number)

/-- Apart from the signs of zeros, only one unpacked double stands for each number. -/
theorem eq_of_unpacked_compare_eq {left right : UnpackedFloat}
    (equal : left.compare right = some .eq) :
    left = right ∨ ∃ s t, left = .zero s ∧ right = .zero t := by
  have parts {e f : Int} {m n : Nat} (same : (compare e f).then (compare m n) = .eq) :
      e = f ∧ m = n := by
    rw [Ordering.then_eq_eq] at same
    exact ⟨Int.compare_eq_eq.mp same.1, Nat.compare_eq_eq.mp same.2⟩
  cases left with
  | notANumber => cases equal
  | zero s =>
    cases right with
    | zero t => exact .inr ⟨s, t, rfl, rfl⟩
    | notANumber => cases equal
    | infinity t => cases t <;> cases equal
    | finite t n f positive => cases t <;> cases equal
  | infinity s =>
    cases right with
    | infinity t =>
      cases s with
      | positive => cases t with
        | positive => exact .inl rfl
        | negative => cases equal
      | negative => cases t with
        | positive => cases equal
        | negative => exact .inl rfl
    | _ => cases s <;> cases equal
  | finite s m e leftPositive =>
    cases right with
    | finite t n f rightPositive =>
      cases s with
      | positive => cases t with
        | positive =>
          obtain ⟨rfl, rfl⟩ := parts (Option.some.inj equal)
          exact .inl rfl
        | negative => cases equal
      | negative => cases t with
        | positive => cases equal
        | negative =>
          obtain ⟨rfl, rfl⟩ := parts (Ordering.swap_eq_eq.mp (Option.some.inj equal))
          exact .inl rfl
    | infinity t => cases s <;> cases t <;> cases equal
    | _ => cases s <;> cases equal

theorem unpacked_compare_eq_of_common {common left right : UnpackedFloat}
    (first : common.compare left = some .eq) (second : common.compare right = some .eq) :
    left.compare right = some .eq := by
  rcases eq_of_unpacked_compare_eq first with rfl | ⟨s, t, rfl, rfl⟩
  · exact second
  · rcases eq_of_unpacked_compare_eq second with rfl | ⟨s, r, -, rfl⟩
    · rfl
    · rfl

theorem float_beq_of_common {common left right : Float} (first : (common == left) = true)
    (second : (common == right) = true) : (left == right) = true := by
  rw [float_beq_iff] at first second ⊢
  exact unpacked_compare_eq_of_common first second

end Equality
end PageDesigner
